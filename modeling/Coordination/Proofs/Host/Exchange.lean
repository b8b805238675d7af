import Coordination.Proofs.Authority.Changes
import Coordination.Proofs.Host.Agents
import Coordination.Proofs.Records.Recording
/-!
# Announcement and welcome

One exchange between a host and its authority: the host announces its roster, the authority records
what is new and answers with the canonical list, and the host takes it over.  After the first
exchange of a new host roster and canonical list are equal, and further exchanges leave both as they
are.
-/

namespace Coordination

/-! ## Exchanges -/

/-- A host, its authority and the records. -/
structure Pairing where
  host : Host
  authority : Authority
  repository : Repository

namespace Pairing

def announcement (p : Pairing) (timestamp : String) : RawMessage :=
  (Message.ofData p.host.topics.publishToAuthority
    ((Event.hostConnect p.host.snapshot).toData timestamp)).toRaw

/-- The host takes over what a message of the authority says, if it is a welcome of this host. -/
def welcomed (p : Pairing) (raw : RawMessage) : Option (Reconciliation × Pairing) :=
  match (Message.ofRaw raw).decode with
  | .ok (.hostWelcome host plugins agents) =>
    if host.id = p.host.id then
      let (outcome, host) := p.host.welcome plugins agents
      some (outcome, { p with host })
    else none
  | _ => none

/-- The host announces itself at a time, the authority handles the announcement, and the host the
answer; what the reconciliation did. -/
def exchange (p : Pairing) (timestamp : String) : Option (Reconciliation × Pairing) :=
  match (Message.ofRaw (p.announcement timestamp)).decode with
  | .ok (.hostConnect reported) =>
    let (_, authority, repository) := p.authority.hostConnected p.repository reported
    match authority.bus.accepted.drop p.authority.bus.accepted.length with
    | [answer] => { p with authority, repository }.welcomed answer
    | _ => none
  | _ => none

/-- Exchanges at several times, one after another. -/
def exchanges (p : Pairing) : List String → Option Pairing
  | [] => some p
  | timestamp :: timestamps =>
    (p.exchange timestamp).bind fun (_, p) => p.exchanges timestamps

/-- The plugins of the host as it knows them. -/
def roster (p : Pairing) : List Plugin := p.host.registry.plugins

/-- The plugins of the host as they are on record. -/
def canonical (p : Pairing) : List Plugin := p.repository.records.pluginsOf p.host.id

/-- What an exchange needs to succeed: the host has an id that can be read and is on record, the
authority is connected, and neither the transport nor the records refuse anything. -/
structure Works (p : Pairing) : Prop where
  id_not_blank : ¬ Text.isBlank p.host.id
  on_record : (p.repository.records.host? p.host.id).isSome = true
  connected : p.authority.bus.connected = true
  transport : p.authority.bus.down = []
  records : p.repository.down = []

end Pairing

namespace Host

/-- Running an agent does not concern the registry. -/
theorem registry_agentConnect (h : Host) (agent : AgentModel) :
    (h.agentConnect agent).2.registry = h.registry := by
  have hcreate : ∀ h : Host, (h.createRuntime agent).2.registry = h.registry := by
    intro h
    unfold createRuntime
    split <;> rfl
  have hconnect : ∀ (h : Host) (r : Runtime), (h.connectRuntime r).2.registry = h.registry := by
    intro h r
    unfold connectRuntime
    split
    · rfl
    · split
      · rfl
      · split <;> rfl
  have hdispose : ∀ h : Host, (h.disposeRuntime agent.id).2.registry = h.registry := by
    intro h
    simp only [disposeRuntime]
    split <;> rfl
  -- each stage leaves the registry alone, and so does the sequence of them
  have hmade := hcreate h
  unfold agentConnect
  split
  · rfl
  · rcases hcreated : h.createRuntime agent with ⟨result₁, h₁⟩
    rw [hcreated] at hmade
    cases result₁ with
    | error fault => exact hmade
    | ok r =>
      have hbegun := hconnect h₁ r
      dsimp only at hmade ⊢
      rcases hconnected : h₁.connectRuntime r with ⟨result₂, h₂⟩
      rw [hconnected] at hbegun
      cases result₂ with
      | error fault => exact (hdispose h₂).trans (hbegun.trans hmade)
      | ok r' => exact hbegun.trans hmade

theorem registry_welcome (h : Host) (plugins : List Plugin) (agents : List AgentModel) :
    (h.welcome plugins agents).2.registry = (h.registry.reconcile plugins).1 := by
  refine List.foldlRecOn
    (motive := fun h' : Host => h'.registry = (h.registry.reconcile plugins).1) agents _ rfl ?_
  intro h' hregistry agent _
  exact (h'.registry_agentConnect agent).trans hregistry

end Host

namespace Pairing

variable {p p' : Pairing}

/-- The host is told of in its announcement. -/
theorem decode_announcement (hblank : ¬ Text.isBlank p.host.id) (timestamp : String) :
    (Message.ofRaw (p.announcement timestamp)).decode = .ok (.hostConnect p.host.snapshot) := by
  have hcomplete : (Event.hostConnect p.host.snapshot).Complete := hblank
  unfold announcement
  rw [Message.decode_ofRaw, Event.decode_toData_eq_ok_iff hcomplete]
  exact fun s hs => absurd hs List.not_mem_nil

/-- The host takes over a welcome. -/
theorem welcomed_eq {host : HostModel} (hid : host.id = p.host.id)
    (hblank : ¬ Text.isBlank p.host.id) (topic timestamp : String) (plugins : List Plugin)
    (agents : List AgentModel) :
    p.welcomed (Message.ofData topic
        ((Event.hostWelcome host plugins agents).toData timestamp)).toRaw =
      some ((p.host.registry.reconcile plugins).2,
        { p with host := (p.host.welcome plugins agents).2 }) := by
  have hcomplete : (Event.hostWelcome host plugins agents).Complete := by
    show ¬ Text.isBlank host.id
    rwa [hid]
  have hdecode : (Message.ofRaw (Message.ofData topic
      ((Event.hostWelcome host plugins agents).toData timestamp)).toRaw).decode =
      .ok (.hostWelcome host plugins agents) := by
    rw [Message.decode_ofRaw, Event.decode_toData_eq_ok_iff hcomplete]
    exact fun s hs => absurd hs List.not_mem_nil
  unfold welcomed
  rw [hdecode]
  exact if_pos hid

theorem exchange_of_welcomes (hworks : p.Works) {known : HostModel} {a' : Authority}
    {r' : Records} (hid : known.id = p.host.id)
    (hanswer : (p.authority.hostConnected p.repository p.host.snapshot).2 = (a', ⟨r', []⟩))
    (hwelcomes : p.authority.Welcomes p.repository.records p.host.snapshot known a' r')
    (timestamp : String) :
    ∃ agents : List AgentModel, p.exchange timestamp =
      some ((p.host.registry.reconcile (r'.pluginsOf p.host.id)).2,
        ⟨(p.host.welcome (r'.pluginsOf p.host.id) agents).2, a', ⟨r', []⟩⟩) := by
  obtain ⟨agents, -, -, hsent⟩ := hwelcomes.sent
  -- the welcome is all that the authority has sent
  have hnew : a'.bus.accepted.drop p.authority.bus.accepted.length =
      [p.authority.outgoing (p.authority.topics.publishToHost p.host.id)
        (.hostWelcome known (r'.pluginsOf p.host.id) agents)] := by
    rw [hsent]
    unfold Authority.afterSending Authority.taken
    rw [hworks.transport, if_neg List.not_mem_nil]
    exact List.drop_left
  refine ⟨agents, ?_⟩
  unfold exchange
  rw [decode_announcement hworks.id_not_blank]
  rcases hconnect : p.authority.hostConnected p.repository p.host.snapshot with ⟨result, a, r⟩
  rw [hconnect] at hanswer
  obtain ⟨rfl, rfl⟩ := Prod.mk.inj hanswer
  simp only [hconnect, hnew]
  exact welcomed_eq (p := ⟨p.host, a, ⟨r', []⟩⟩) hid hworks.id_not_blank _ _ _ _

/-- **One exchange.**  Records and registry change as if there were no wire between them: the
report is recorded, and the list that results is reconciled. -/
theorem exchange_eq (hworks : p.Works) (timestamp : String) :
    ∃ p', p.exchange timestamp = some ((p.host.registry.reconcile p'.canonical).2, p') ∧
      p'.Works ∧ p'.host.id = p.host.id ∧
      p'.host.registry = (p.host.registry.reconcile p'.canonical).1 ∧
      p'.canonical = (Records.recordAll p.repository.records.newId p.repository.records.issued
        p.canonical p.roster).1 := by
  have hrepository : p.repository = ⟨p.repository.records, []⟩ := by
    rw [← hworks.records]
  obtain ⟨known, hknown⟩ := Option.isSome_iff_exists.mp hworks.on_record
  have hknown : p.repository.records.host? p.host.snapshot.id = some known := hknown
  -- the authority has the host on record and so welcomes it
  obtain ⟨a', r', hanswer, hwelcomes⟩ := Authority.hostConnected_of_known hworks.connected hknown
  obtain ⟨e, hentry, rfl⟩ := Option.map_eq_some_iff.mp hknown
  rw [← hrepository] at hanswer
  obtain ⟨agents, hexchange⟩ :=
    exchange_of_welcomes hworks (Records.id_of_entry? hentry) hanswer hwelcomes timestamp
  have hsteady := p.host.steady_welcome (r'.pluginsOf p.host.id) agents
  have hrecord : (r'.host? p.host.id).isSome = true := by
    have hentry' : r'.entry? p.host.id = _ := hwelcomes.frame.entry e hentry
    unfold Records.host?
    rw [hentry']
    rfl
  have hcanonical : r'.pluginsOf (p.host.welcome (r'.pluginsOf p.host.id) agents).2.id =
      r'.pluginsOf p.host.id := by rw [hsteady.id]
  refine ⟨⟨(p.host.welcome (r'.pluginsOf p.host.id) agents).2, a', ⟨r', []⟩⟩, ?_, ?_, hsteady.id,
    ?_, ?_⟩
  · rw [hexchange]
    unfold canonical
    rw [hcanonical]
  · obtain ⟨agents, -, -, rfl⟩ := hwelcomes.sent
    constructor
    · rw [hsteady.id]
      exact hworks.id_not_blank
    · rw [hsteady.id]
      exact hrecord
    · exact hworks.connected
    · exact hworks.transport
    · rfl
  · unfold canonical
    rw [hcanonical]
    exact p.host.registry_welcome _ agents
  -- the list before the exchange is that of the entry of the host
  · have hbefore : p.repository.records.pluginsOf p.host.id = e.host.plugins := by
      have hknown : p.repository.records.host? p.host.id = some e.host := hknown
      unfold Records.pluginsOf
      rw [hknown]
    unfold canonical
    rw [hcanonical, hbefore]
    exact Records.eq_of_sync hknown hwelcomes.synced

/-! ## Agreement -/

/-- Host and records have the same plugins, with distinct names and with all ids. -/
structure Agreed (p : Pairing) : Prop where
  same : p.roster = p.canonical
  distinct : Plugin.Distinct p.canonical
  resolved : ∀ plugin ∈ p.canonical, plugin.Resolved

/-- The list that the records have after the host has reported its roster. -/
def recorded (p : Pairing) : List Plugin :=
  (Records.recordAll p.repository.records.newId p.repository.records.issued p.canonical
    p.roster).1

/-- Where the records have exactly the reported plugins, with all ids, host and records agree after
the exchange. -/
theorem agreed_of_exchange (hworks : p.Works) (hdistinct : Plugin.Distinct p.roster)
    (houtline : p.recorded.map Plugin.outline = p.roster.map Plugin.outline)
    (hresolved : ∀ plugin ∈ p.recorded, plugin.Resolved) (timestamp : String) :
    ∃ outcome p', p.exchange timestamp = some (outcome, p') ∧
      outcome.matched = p.roster.length ∧ outcome.adopted = 0 ∧ p'.host.id = p.host.id ∧
      p'.Works ∧ p'.Agreed ∧ p'.canonical = p.recorded := by
  obtain ⟨p', hexchange, hworks', hid, hregistry, hcanonical⟩ := exchange_eq hworks timestamp
  have hcanonical : p'.canonical = p.recorded := hcanonical
  rw [← hcanonical] at houtline hresolved
  have hdistinct' : Plugin.Distinct p'.canonical := hdistinct.congr houtline
  obtain ⟨hplugins, hmatched, hadopted⟩ :=
    p.host.registry.reconcile_of_outline houtline.symm hdistinct' hresolved
  have hsame : p'.roster = p'.canonical := by
    unfold roster
    rw [hregistry, hplugins]
  have hlength : p'.canonical.length = p.roster.length := by
    have hlengths := congrArg List.length houtline
    rwa [List.length_map, List.length_map] at hlengths
  exact ⟨_, p', hexchange, hmatched.trans hlength, hadopted, hid, hworks',
    ⟨hsame, hdistinct', hresolved⟩, hcanonical⟩

/-- Host and records that agree exchange nothing new. -/
theorem Agreed.recorded_eq (h : p.Agreed) : p.recorded = p.canonical := by
  unfold recorded
  rw [h.same, Records.recordAll_of_matched]
  exact fun plugin hplugin => Plugin.isSome_positionIn?_of_mem hplugin

theorem Agreed.exchange (h : p.Agreed) (hworks : p.Works) (timestamp : String) :
    ∃ outcome p', p.exchange timestamp = some (outcome, p') ∧ p'.Works ∧ p'.Agreed ∧
      p'.roster = p.roster ∧ p'.canonical = p.canonical := by
  have hdistinct : Plugin.Distinct p.roster := h.same ▸ h.distinct
  have houtline : p.recorded.map Plugin.outline = p.roster.map Plugin.outline := by
    rw [h.recorded_eq, h.same]
  have hresolved : ∀ plugin ∈ p.recorded, plugin.Resolved := by
    rw [h.recorded_eq]
    exact h.resolved
  obtain ⟨outcome, p', hexchange, -, -, -, hworks', hagreed, hcanonical⟩ :=
    agreed_of_exchange hworks hdistinct houtline hresolved timestamp
  have hkept : p'.canonical = p.canonical := hcanonical.trans h.recorded_eq
  have hroster : p'.roster = p.roster := by
    rw [hagreed.same, hkept, h.same]
  exact ⟨outcome, p', hexchange, hworks', hagreed, hroster, hkept⟩

/-- However many exchanges there are, an agreement stays as it is. -/
theorem Agreed.exchanges (h : p.Agreed) (hworks : p.Works) (timestamps : List String) :
    ∃ p', p.exchanges timestamps = some p' ∧ p'.roster = p.roster ∧
      p'.canonical = p.canonical := by
  induction timestamps generalizing p with
  | nil => exact ⟨p, rfl, rfl, rfl⟩
  | cons timestamp timestamps ih =>
    obtain ⟨outcome, p', hfirst, hworks', hagreed, hroster, hcanonical⟩ :=
      h.exchange hworks timestamp
    obtain ⟨p'', hrest, hroster', hcanonical'⟩ := ih hagreed hworks'
    refine ⟨p'', ?_, hroster'.trans hroster, hcanonical'.trans hcanonical⟩
    unfold Pairing.exchanges
    rw [hfirst]
    exact hrest

/-- **The first exchange makes the capabilities of a host canonical.**  A host whose roster was
built by registration, with distinct display names and distinct function names, and which is on
record without plugins, has after one exchange the plugins that it had, each with the id of the
canonical plugin of its unique name and all functions with the ids of the canonical functions of
their names: roster and canonical list are equal.  Each plugin was matched and none added, and no
number of further exchanges changes the roster or the canonical list. -/
theorem exchange_settles (hworks : p.Works) (hregistered : Registry.Registered p.host.registry)
    (hnames : (p.roster.map Plugin.name).Nodup)
    (hfunctions : ∀ plugin ∈ p.roster, (plugin.functions.map Function.name).Nodup)
    (hnew : p.canonical = []) (timestamp : String) :
    ∃ outcome p', p.exchange timestamp = some (outcome, p') ∧
      outcome.matched = p.roster.length ∧ outcome.adopted = 0 ∧ p'.host.id = p.host.id ∧
      p'.roster.map Plugin.outline = p.roster.map Plugin.outline ∧
      p'.roster = p'.canonical ∧ Plugin.Distinct p'.canonical ∧
      (∀ plugin ∈ p'.canonical, plugin.Resolved) ∧
      ∀ timestamps, ∃ p'', p'.exchanges timestamps = some p'' ∧ p''.roster = p'.roster ∧
        p''.canonical = p'.canonical := by
  obtain ⟨hnamed, huniqueNames⟩ := hregistered.uniqueNames
  have hdistinct : Plugin.Distinct p.roster := ⟨hnamed, huniqueNames, hnames, hfunctions⟩
  have hdistinct' : Plugin.Distinct (p.canonical ++ p.roster) := by
    rwa [hnew]
  obtain ⟨added, hlist, houtline, hresolved⟩ :=
    Records.recordAll_of_distinct p.repository.records.issued hdistinct'
  -- nothing was on record, so that the record is a copy of what the host has reported
  have hrecorded : p.recorded = added := by
    unfold recorded
    rw [hlist, hnew, List.nil_append]
  rw [← hrecorded] at houtline hresolved
  obtain ⟨outcome, p', hexchange, hmatched, hadopted, hid, hworks', hagreed, hcanonical⟩ :=
    agreed_of_exchange hworks hdistinct houtline hresolved timestamp
  refine ⟨outcome, p', hexchange, hmatched, hadopted, hid, ?_, hagreed.same, hagreed.distinct,
    hagreed.resolved, hagreed.exchanges hworks'⟩
  rw [hagreed.same, hcanonical, houtline]

/-- A host with a lamp that was described while running and a heating that is a type. -/
theorem exchange_settles_two_plugins :
    let discovery : Discovery :=
      { id := "authority"
        authorityUri := { scheme := "http", host := some "authority", path := .rooted [""] }
        internalUri := none, brokerOverride := none, backoff := .withMax Backoff.defaultMax }
    let lamp : PluginDescriptor := { name := "Lamp", functions := [{ name := "on" }] }
    let heating : Capability := ⟨"Heating", { name := "Heating", uniqueName := "acme.heating" }⟩
    let registry : Registry := { plugins := [lamp.toPlugin lamp.name, heating.toPlugin] }
    let p : Pairing :=
      { host :=
          { id := "host 1", name := "kitchen", secret := "secret", discovery
            topics := ⟨"authority", "host 1"⟩, retryDelay := .ofMillis 10000, registry }
        authority :=
          { discovery, bus := { connected := true }, topics := ⟨"authority", "authority"⟩
            cipher := .plain }
        repository :=
          { records := { hosts := [⟨{ id := "host 1" }, some "user"⟩], newId := serialId } } }
    p.Works ∧ Registry.Registered p.host.registry ∧ (p.roster.map Plugin.name).Nodup ∧
      (∀ plugin ∈ p.roster, (plugin.functions.map Function.name).Nodup) ∧ p.canonical = [] ∧
      ∃ outcome p', p.exchange "now" = some (outcome, p') ∧ outcome.matched = 2 ∧
        p'.roster = p'.canonical := by
  intro discovery lamp heating registry p
  have hworks : p.Works := ⟨by decide, by decide, rfl, rfl, rfl⟩
  -- the two plugins are registered one after the other
  have hregistered : Registry.Registered p.host.registry := by
    have hlamp : Registry.addDescriptor {} lamp = .ok { plugins := [lamp.toPlugin lamp.name] } := by
      decide
    exact .type (.descriptor .empty hlamp) (c := heating) (by decide)
  have hnames : (p.roster.map Plugin.name).Nodup := by decide
  have hfunctions : ∀ plugin ∈ p.roster, (plugin.functions.map Function.name).Nodup := by decide
  obtain ⟨outcome, p', hexchange, hmatched, -, -, -, hsame, -⟩ :=
    exchange_settles hworks hregistered hnames hfunctions rfl "now"
  exact ⟨hworks, hregistered, hnames, hfunctions, rfl, outcome, p', hexchange, hmatched, hsame⟩

end Pairing

end Coordination
