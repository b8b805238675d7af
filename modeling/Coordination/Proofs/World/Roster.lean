import Coordination.Proofs.Topic.Routing
import Coordination.Proofs.World.Progress
import Coordination.Reproducible
/-!
# Hosts and rosters

The authority welcomes a host with its roster and tells it of every change from then on, while the
messages to the host stay in their order.  So once all messages were handled, exactly the agents on
the roster of a host that was welcomed are live.  An agent is live on one host at most, as long as
no change takes it from a host that is not told.
-/

namespace Coordination

/-- What happens to the agents of a host: new agents are put on record, agents of the host stay with
it when they change, and agents are taken off the records. -/
def Change.Ordinary (r : Records) (hostId : String) : Change → Prop
  | create agent => r.agent? agent.id = none
  | update agent =>
    ∀ m, r.agent? agent.id = some m → m.hostId = some hostId → agent.hostId = some hostId
  | retire _ => False
  | remove agent => r.agent? agent.id = some agent

theorem Change.Ordinary.spares {r : Records} {hostId : String} {c : Change}
    (hc : c.Ordinary r hostId) (h : (AgentModel.ids r.agents).Nodup) : c.Spares r hostId := by
  cases c with
  | create agent => exact fun hon => absurd hon (Records.not_mem_roster_of_agent? hc)
  | update agent =>
    rintro ⟨m, hm, hid, -, hhost⟩
    exact hc m ((Records.agent?_eq_some_iff h).mpr ⟨hm, hid⟩) hhost
  | retire agent => exact hc.elim
  | remove agent => exact fun hon => ((Records.mem_roster_of_agent? h hc).mp hon).2

theorem Change.Ordinary.owns {r : Records} {hostId : String} {c : Change}
    (hc : c.Ordinary r hostId) : c.Owns hostId := by
  cases c with
  | retire agent => exact hc.elim
  | _ => trivial

namespace Host

/-- A host that entered the broker, and neither listens nor runs anybody yet. -/
structure Fresh (authorityId : String) (h : Host) : Prop where
  topics : h.topics = ⟨authorityId, h.id⟩
  names : Topic.NamesHost authorityId h.id
  factory : h.factory.NeverFails
  connected : h.bus.connected = true
  down : h.bus.down = []
  subscriptions : h.bus.subscriptions = []
  accepted : h.bus.accepted = []
  agents : h.agents = []

theorem Fresh.line_nil {authorityId : String} {h : Host} (hfresh : h.Fresh authorityId) :
    h.bus.line h.inbox = [] := by
  unfold Bus.line
  rw [hfresh.subscriptions]
  rfl

theorem Fresh.agentIds_nil {authorityId : String} {h : Host} (hfresh : h.Fresh authorityId) :
    h.agentIds = [] := by
  unfold agentIds
  rw [hfresh.agents]
  rfl

/-- Whether the host handles a welcome next. -/
def meetsWelcome (h : Host) : Bool :=
  match h.bus.inbox h.inbox with
  | [] => false
  | m :: _ =>
    match m.instruction h.topics.authorityId h.id with
    | .welcome _ => true
    | _ => false

end Host

namespace World

/-- An authority that is up over records that work, and hosts that nobody has told anything. -/
structure Fresh (authorityId : String) (w : World) : Prop where
  authority : ∃ a, w.authority = some a ∧ a.Presides authorityId ∧ a.bus.accepted = []
  up : w.repository.down = []
  records : w.repository.records.Tellable authorityId
  hosts : ∀ entry ∈ w.hosts, entry.2.Fresh authorityId

/-- Whether an action is that the host of a label handles a welcome. -/
def welcomesNext (label : String) (w : World) : Action → Bool
  | .serveHost other => other == label && (w.host? label).any Host.meetsWelcome
  | _ => false

/-- Whether the host of a label is welcomed in a run. -/
def welcomes (label : String) (w : World) : List Action → Bool
  | [] => false
  | action :: actions => w.welcomesNext label action || (w.act action).welcomes label actions

variable {authorityId label : String} {p : Records → Change → Prop} {due : Option Change}
  {w : World} {h h' : Host} {actions : List Action}

/-! ## At the start -/

theorem mem_hosts_of_host? (hhost : w.host? label = some h) : (label, h) ∈ w.hosts := by
  obtain ⟨before, after, hhosts, -⟩ := List.lookup_eq_some_iff.mp hhost
  rw [hhosts]
  exact List.mem_append_right before List.mem_cons_self

theorem Fresh.accepted_nil (hw : w.Fresh authorityId) : w.accepted = [] := by
  obtain ⟨a, ha, -, haccepted⟩ := hw.authority
  exact (accepted_eq ha).trans haccepted

/-- A fresh host is still to do nothing, and runs nobody. -/
theorem Fresh.view_eq (hw : w.Fresh authorityId) (hhost : w.host? label = some h) :
    h.view authorityId (w.outlook none) = ⟨w.repository.records, false, [], ∅⟩ := by
  have hfresh := hw.hosts _ (mem_hosts_of_host? hhost)
  have hline := hfresh.line_nil
  have hcoming : h.coming authorityId w.accepted = [] := by
    unfold Host.coming
    rw [Bus.waiting_of_line_nil hline, hw.accepted_nil]
    rfl
  have hlive : h.live = ∅ := by
    unfold Host.live
    rw [hfresh.agentIds_nil]
    exact Set.eq_empty_of_forall_notMem fun id hid => nomatch hid
  rw [Host.view_of_line_nil hline, hlive]
  show View.mk _ _ (h.coming authorityId w.accepted ++ []) _ = _
  rw [hcoming]
  rfl

theorem Fresh.orderly (hw : w.Fresh authorityId) (p : Records → Change → Prop) :
    w.Orderly authorityId p none where
  authority := by
    obtain ⟨a, ha, hp, -⟩ := hw.authority
    exact ⟨a, ha, hp⟩
  up := hw.up
  records := hw.records
  pending c hc := nomatch hc
  hosts label h hhost := by
    have hfresh := hw.hosts _ (mem_hosts_of_host? hhost)
    -- nothing has been sent and nobody listens, so no instruction is on its way
    have hcoming : h.coming authorityId w.accepted = [] :=
      (List.append_eq_nil_iff.mp (congrArg View.coming (hw.view_eq hhost))).1
    have hobedient : h.Obedient authorityId := by
      refine ⟨hfresh.topics, hfresh.names.toNames, hfresh.factory, hfresh.connected, hfresh.down,
        ?_, ?_, ?_, .inl hfresh.line_nil⟩
      · rw [hfresh.agentIds_nil]
        exact List.nodup_nil
      · rw [hfresh.agents]
        exact fun r hr => nomatch hr
      · unfold Bus.filters
        rw [hfresh.subscriptions]
        exact fun f hf => nomatch hf
    refine ⟨hobedient, hfresh.names, fun _ => hfresh.agents, ?_, ?_⟩
    · rw [hfresh.accepted]
      exact fun raw hraw => nomatch hraw
    · rw [hcoming]
      exact fun i hi => nomatch hi

/-! ## At rest -/

/-- Once no message is in flight, a host is still to do nothing. -/
theorem Quiet.coming_nil (hquiet : w.Quiet) (hhost : w.host? label = some h) :
    h.coming authorityId w.accepted = [] := by
  have hbus : h.bus ∈ w.buses :=
    List.mem_append_right _ (List.mem_map.mpr ⟨_, mem_hosts_of_host? hhost, rfl⟩)
  -- neither the stream nor the inbox of a subscription holds anything
  have hwaiting : h.bus.waiting h.inbox = [] := by
    unfold Bus.waiting
    rw [List.flatMap_eq_nil_iff]
    intro s hs
    obtain ⟨hpending, hinbox⟩ := (hquiet _ hbus).2.2 s (List.mem_of_mem_filter hs)
    rw [hpending, hinbox]
    rfl
  have haccepted : w.accepted = [] := by
    cases ha : w.authority with
    | none =>
      unfold accepted
      rw [ha]
      rfl
    | some a =>
      rw [accepted_eq ha]
      have hmem : a.bus ∈ w.buses := by
        unfold buses
        rw [ha]
        exact List.mem_append_left _ (List.mem_singleton_self _)
      exact (hquiet _ hmem).2.1
  unfold Host.coming
  rw [hwaiting, haccepted]
  rfl

theorem Quiet.view_eq (hquiet : w.Quiet) (hhost : w.host? label = some h) :
    h.view authorityId (w.outlook none) =
      ⟨w.repository.records, !(h.bus.line h.inbox).isEmpty, [], h.live⟩ := by
  unfold Host.view
  show View.mk _ _ (h.coming authorityId w.accepted ++ []) _ = _
  rw [hquiet.coming_nil hhost]
  rfl

/-- Changes that spare a host have nobody run there in the end who is not on its roster. -/
theorem Fresh.live_subset (hw : w.Fresh authorityId) (hallows : w.Allows authorityId p none actions)
    (hhost : w.host? label = some h)
    (hspares : ∀ r c, (AgentModel.ids r.agents).Nodup → p r c → c.Spares r h.id)
    (hquiet : (w.actAll actions).Quiet) (hhost' : (w.actAll actions).host? label = some h') :
    h'.live ⊆ roster (w.actAll actions).repository.records.agents h.id := by
  obtain ⟨f, hf, hviews⟩ := ((hw.orderly p).passes hallows).hosts label
  obtain ⟨-, hmoves⟩ := hviews h hhost
  have hh' : f h = h' := by
    rw [hhost, hhost'] at hf
    exact (Option.some.inj hf).symm
  rw [hh'] at hmoves
  have hstart : (h.view authorityId (w.outlook none)).Sound h.id := by
    rw [hw.view_eq hhost]
    exact Set.empty_subset _
  have hend := hstart.run hspares hmoves
  unfold View.Sound at hend
  rwa [hquiet.view_eq hhost'] at hend

/-! ## Welcomes -/

/-- A host that handles a welcome will run everybody on its roster. -/
theorem Orderly.complete_serveFirst (hw : w.Orderly authorityId p due)
    (hhost : w.host? label = some h) (hmeets : h.meetsWelcome = true)
    (hprimed : (h.view authorityId (w.outlook due)).Primed h.id) :
    let v := h.serveFirst.view authorityId (w.outlook due)
    v.Complete h.id ∧ v.listens = true := by
  have he : h.Enrolled authorityId (w.outlook due).accepted := hw.hosts label h hhost
  unfold Host.meetsWelcome at hmeets
  rw [show h.topics.authorityId = authorityId by rw [he.obedient.topics]] at hmeets
  cases hinbox : h.bus.inbox h.inbox with
  | nil =>
    rw [hinbox] at hmeets
    cases hmeets
  | cons m rest =>
    rw [hinbox] at hmeets
    obtain ⟨is, hview, hview', -⟩ := he.serve hinbox
    rw [hview] at hprimed
    intro v
    have hv : v = ⟨w.repository.records, true, is, (m.instruction authorityId h.id).apply h.live⟩ :=
      hview'
    -- the host meets a welcome next, so that no other instruction is possible
    cases hinstruction : m.instruction authorityId h.id with
    | welcome ids =>
      rw [hinstruction] at hprimed hv
      rw [hv]
      exact ⟨hprimed.complete, rfl⟩
    | _ =>
      dsimp only at hmeets
      rw [hinstruction] at hmeets
      cases hmeets

/-- A welcome sees to it that everybody on the roster will run, whatever else happens. -/
theorem Orderly.complete (hw : w.Orderly authorityId p due)
    (hallows : w.Allows authorityId p due actions) (hhost : w.host? label = some h)
    (howns : ∀ r c, p r c → c.Owns h.id)
    (hprimed : (h.view authorityId (w.outlook due)).Primed h.id)
    (hwelcomes : w.welcomes label actions = true)
    (hhost' : (w.actAll actions).host? label = some h') :
    (h'.view authorityId ((w.actAll actions).outlook none)).Complete h.id := by
  -- the welcomes stay good up to the first one, and the roster is covered after it
  induction actions generalizing w h due with
  | nil => cases hwelcomes
  | cons action actions ih =>
    obtain ⟨due₁, hprogress, hrest⟩ := hw.progress hallows
    obtain ⟨f, hf, hsteps⟩ := hprogress.hosts label
    have hstep := hsteps h hhost
    have hhost₁ : (w.act action).host? label = some (f h) := by
      rw [hf, hhost]
      rfl
    rcases Bool.or_eq_true_iff.mp hwelcomes with hnow | hlater
    · -- the host handles a welcome: from here on the roster is covered, by the run that remains
      cases action with
      | serveHost other =>
        obtain ⟨hother, hany⟩ := Bool.and_eq_true_iff.mp hnow
        have hmeets : h.meetsWelcome = true := by
          rw [hhost] at hany
          exact hany
        rw [beq_iff_eq] at hother
        subst hother
        have hserved : f h = h.serveFirst := by
          have hhost₂ := w.host?_updateHost other Host.serveFirst other
          rw [hhost, Option.map_some, if_pos rfl] at hhost₂
          exact Option.some.inj (hhost₁.symm.trans hhost₂)
        obtain ⟨hcomplete, hlistens⟩ := hw.complete_serveFirst hhost hmeets hprimed
        have hserve : Progress authorityId p due w due (w.act (.serveHost other)) :=
          hw.progress_updateHost other fun h he => he.serveFirst
        obtain ⟨g, hg, hviews⟩ := (hserve.orderly.passes hallows).hosts other
        obtain ⟨-, hmoves⟩ := hviews (f h) hhost₁
        have hend : g (f h) = h' := by
          rw [hhost₁] at hg
          exact Option.some.inj (hg.symm.trans hhost')
        have houtlook : (w.act (.serveHost other)).outlook due = w.outlook due :=
          w.outlook_updateHost other Host.serveFirst
        rw [hstep.id, hend, hserved, houtlook] at hmoves
        exact hcomplete.run hlistens howns hmoves
      | _ => cases hnow
    · -- the welcome comes later, and this action spoils none
      have hcomplete := ih hprogress.orderly hrest hhost₁ (by rw [hstep.id]; exact howns)
        (by rw [hstep.id]; exact hprimed.moves howns hstep.moves) hlater hhost'
      rwa [hstep.id] at hcomplete

/-! ## Live agents -/

/-- An authority that listens and hosts that it knows, all in the broker. -/
def installation (hostIds : List String) : World :=
  let discovery : Discovery :=
    { id := "auth", authorityUri := { scheme := "http", host := some "auth", path := .rooted [] }
      internalUri := none, brokerOverride := none, backoff := .withMax Backoff.defaultMax }
  let inbox := Generator.subscribeAsAuthority ⟨"auth", "auth"⟩
  { repository :=
      { records := { hosts := hostIds.map fun id => ⟨{ id := id }, none⟩, newId := serialId } }
    authority := some
      { discovery, topics := ⟨"auth", "auth"⟩, state := ⟨.connected, true⟩
        bus := Bus.subscribed { connected := true } inbox inbox, cipher := .plain }
    hosts := hostIds.map fun id => (id,
      { id := id, name := id, secret := "s", discovery, topics := ⟨"auth", id⟩
        bus := { connected := true }, retryDelay := .ofSeconds 1, factory := .recording }) }

theorem fresh_installation {hostIds : List String}
    (hids : ∀ id ∈ hostIds, Topic.NamesHost "auth" id) : (installation hostIds).Fresh "auth" where
  authority := ⟨_, rfl, ⟨by decide, by decide, rfl, rfl, rfl⟩, rfl⟩
  up := rfl
  records := ⟨List.nodup_nil, fun m hm => nomatch hm⟩
  hosts entry hentry := by
    obtain ⟨id, hid, rfl⟩ := List.mem_map.mp hentry
    have hfactory : AgentFactory.recording.NeverFails :=
      ⟨fun _ _ _ _ => rfl, fun _ _ hkind => nomatch hkind⟩
    exact ⟨rfl, hids id hid, hfactory, rfl, rfl, rfl, rfl, rfl⟩

/-- **The live agents of a host are its roster.**  An authority and hosts that run nobody start;
agents are put on record, changed and taken off the records, the authority tells the hosts, and hosts
announce themselves, in any order and with any delay.  Once a host was welcomed and no message is in
flight, it runs exactly the agents on record that are enabled and on this host. -/
theorem agents_eq_roster (hw : w.Fresh authorityId) (hhost : w.host? label = some h)
    (hallows : w.Allows authorityId (fun r c => c.Ordinary r h.id) none actions)
    (hwelcomes : w.welcomes label actions = true) (hquiet : (w.actAll actions).Quiet) :
    ∃ h', (w.actAll actions).host? label = some h' ∧ ∀ id, id ∈ h'.agentIds ↔
      ∃ m ∈ (w.actAll actions).repository.records.agents,
        m.id = id ∧ m.isEnabled = true ∧ m.hostId = some h.id := by
  obtain ⟨f, hf, -⟩ := ((hw.orderly _).passes hallows).hosts label
  have hhost' : (w.actAll actions).host? label = some (f h) := by
    rw [hf, hhost]
    rfl
  -- nobody runs who should not, and the welcome sees to the rest
  have hsound := hw.live_subset hallows hhost (fun r c hr hc => hc.spares hr) hquiet hhost'
  have hprimed : (h.view authorityId (w.outlook none)).Primed h.id := by
    rw [hw.view_eq hhost]
    trivial
  have hcomplete := (hw.orderly _).complete hallows hhost (fun r c hc => hc.owns) hprimed
    hwelcomes hhost'
  unfold View.Complete at hcomplete
  rw [hquiet.view_eq hhost'] at hcomplete
  refine ⟨f h, hhost', fun id => ⟨fun hid => ?_, fun hid => ?_⟩⟩
  · exact hsound hid
  · exact hcomplete hid

/-- What the host is told of an agent is lost, for it does not listen yet; its welcome names the
agent. -/
theorem agents_eq_roster_late_host :
    let a : AgentModel := { id := "a", hostId := "h1" }
    let inbox := Generator.subscribeAsHost ⟨"auth", "h1"⟩
    let actions : List Action :=
      [.record (.create a), .tell (.create a), .collectAuthority, .listen "h1", .report "h1",
        .collectHost "h1", .forwardAuthority, .serveAuthority, .collectAuthority,
        .forwardHost "h1" inbox, .serveHost "h1"]
    let w := installation ["h1"]
    w.welcomes "h1" actions = true ∧ (w.actAll actions).Quiet ∧
      ∃ h', (w.actAll actions).host? "h1" = some h' ∧ ∀ id, id ∈ h'.agentIds ↔
        ∃ m ∈ (w.actAll actions).repository.records.agents,
          m.id = id ∧ m.isEnabled = true ∧ m.hostId = some "h1" := by
  intro a inbox actions w
  -- the agent was told of before the host listened, and comes with the welcome
  have hend : (w.welcomes "h1" actions && decide (w.actAll actions).Quiet) = true := by
    decide +kernel
  obtain ⟨hwelcomes, hquiet⟩ := Bool.and_eq_true_iff.mp hend
  have hfresh : w.Fresh "auth" := fresh_installation (by decide)
  have ha : Topic.NamesAgent "auth" a.id := .of_no_quote (by decide) (by decide) (by decide)
  have hallows : w.Allows "auth" (fun r c => c.Ordinary r "h1") none actions :=
    ⟨⟨rfl, ha, rfl⟩, rfl, rfl⟩
  obtain ⟨h, hhost, hid⟩ : ∃ h, w.host? "h1" = some h ∧ h.id = "h1" := ⟨_, rfl, rfl⟩
  have hroster :=
    agents_eq_roster hfresh hhost (hid ▸ hallows) hwelcomes (of_decide_eq_true hquiet)
  rw [hid] at hroster
  exact ⟨hwelcomes, of_decide_eq_true hquiet, hroster⟩

/-- A welcomed host is told of an agent whose id is a text in quotes and of its removal, and then of
an agent whose id is one blank.  Both ids are plain.  The first agent stays live though it is on
record no more, for its removal is read as that of the text without quotes; the second is on record
and does not go live, for a blank id is refused. -/
theorem removed_agent_stays_live :
    let quoted : AgentModel := { id := "\"a\"", hostId := "h1" }
    let blank : AgentModel := { id := " ", hostId := "h1" }
    let inbox := Generator.subscribeAsHost ⟨"auth", "h1"⟩
    let told (c : Change) : List Action :=
      [.record c, .tell c, .collectAuthority, .forwardHost "h1" inbox, .serveHost "h1"]
    let actions : List Action :=
      [.listen "h1", .report "h1", .collectHost "h1", .forwardAuthority, .serveAuthority,
        .collectAuthority, .forwardHost "h1" inbox, .serveHost "h1"] ++
      told (.create quoted) ++ told (.remove quoted) ++ told (.create blank)
    let w := installation ["h1"]
    Topic.IsPlain quoted.id ∧ Topic.IsPlain blank.id ∧ w.Fresh "auth" ∧
      w.welcomes "h1" actions = true ∧ (w.actAll actions).Quiet ∧
      (w.actAll actions).repository.records.agents = [blank] ∧
      ∃ h', (w.actAll actions).host? "h1" = some h' ∧ h'.agentIds = [quoted.id] := by
  intro quoted blank inbox told actions w
  have hend : (w.welcomes "h1" actions && decide (w.actAll actions).Quiet &&
      decide ((w.actAll actions).repository.records.agents = [blank]) &&
      decide (((w.actAll actions).host? "h1").map Host.agentIds = some [quoted.id])) = true := by
    decide +kernel
  simp only [Bool.and_eq_true, decide_eq_true_eq] at hend
  obtain ⟨⟨⟨hwelcomes, hquiet⟩, hrecords⟩, hlive⟩ := hend
  exact ⟨by decide, by decide, fresh_installation (by decide), hwelcomes, hquiet, hrecords,
    Option.map_eq_some_iff.mp hlive⟩

/-- **An agent is live on one host at most**, once no message is in flight and as long as every host
is told of each change that takes an agent from it. -/
theorem live_on_one_host (hw : w.Fresh authorityId)
    (hids : (w.hosts.map fun entry => entry.2.id).Nodup)
    (hallows : w.Allows authorityId (fun r c => ∀ hostId, c.Spares r hostId) none actions)
    (hquiet : (w.actAll actions).Quiet) {label' : String}
    (hhost : (w.actAll actions).host? label = some h)
    (hhost' : (w.actAll actions).host? label' = some h') {id : String} (hid : id ∈ h.agentIds)
    (hid' : id ∈ h'.agentIds) : label = label' := by
  have hpasses := (hw.orderly _).passes hallows
  -- whoever is live on a host is on its roster in the end
  have hroster : ∀ {label : String} {h : Host}, (w.actAll actions).host? label = some h →
      id ∈ h.agentIds → ∃ g, (label, g) ∈ w.hosts ∧
        id ∈ roster (w.actAll actions).repository.records.agents g.id := by
    intro label h hhost hid
    obtain ⟨f, hf, -⟩ := hpasses.hosts label
    rw [hhost] at hf
    obtain ⟨g, hg, -⟩ := Option.map_eq_some_iff.mp hf.symm
    exact ⟨g, mem_hosts_of_host? hg,
      hw.live_subset hallows hg (fun r c _ hc => hc g.id) hquiet hhost hid⟩
  obtain ⟨g, hg, hon⟩ := hroster hhost hid
  obtain ⟨g', hg', hon'⟩ := hroster hhost' hid'
  have hsame : g.id = g'.id :=
    Records.eq_of_mem_roster hpasses.orderly.records.nodup hon hon'
  have hentry : (label, g) = (label', g') := List.inj_on_of_nodup_map hids hg hg' hsame
  exact congrArg Prod.fst hentry

/-- An agent on one of two hosts. -/
theorem live_on_one_host_two_hosts :
    let a : AgentModel := { id := "a", hostId := "h1" }
    let inbox := Generator.subscribeAsHost ⟨"auth", "h1"⟩
    let actions : List Action :=
      [.listen "h1", .listen "h2", .record (.create a), .tell (.create a), .collectAuthority,
        .forwardHost "h1" inbox, .serveHost "h1"]
    let w := installation ["h1", "h2"]
    (w.actAll actions).Quiet ∧ ∃ h, (w.actAll actions).host? "h1" = some h ∧ a.id ∈ h.agentIds ∧
      ∀ label' h', (w.actAll actions).host? label' = some h' → a.id ∈ h'.agentIds →
        label' = "h1" := by
  intro a inbox actions w
  have hend : (((w.actAll actions).host? "h1").any (fun h => decide (a.id ∈ h.agentIds)) &&
      decide (w.actAll actions).Quiet) = true := by
    decide +kernel
  obtain ⟨hany, hquiet⟩ := Bool.and_eq_true_iff.mp hend
  obtain ⟨h, hhost, hlive⟩ := (Option.any_eq_true _ _).mp hany
  have hlive : a.id ∈ h.agentIds := of_decide_eq_true hlive
  have hfresh : w.Fresh "auth" := fresh_installation (by decide)
  have hids : (w.hosts.map fun entry => entry.2.id).Nodup := by decide
  have ha : Topic.NamesAgent "auth" a.id := .of_no_quote (by decide) (by decide) (by decide)
  -- the agent is on no roster before, so that the change takes it from nobody
  have hallows : w.Allows "auth" (fun r c => ∀ hostId, c.Spares r hostId) none actions :=
    ⟨⟨rfl, ha, fun hostId hon => absurd hon (Records.not_mem_roster_of_agent? rfl)⟩, rfl, rfl⟩
  refine ⟨of_decide_eq_true hquiet, h, hhost, hlive, fun label' h' hhost' hlive' => ?_⟩
  exact live_on_one_host hfresh hids hallows (of_decide_eq_true hquiet) hhost' hhost hlive' hlive

/-- An agent changes from one host to another: only the host that it goes to is told, and the agent
is live on both. -/
theorem live_on_two_hosts :
    let a : AgentModel := { id := "a", hostId := "h1" }
    let moved : AgentModel := { a with hostId := "h2" }
    let inbox (hostId : String) := Generator.subscribeAsHost ⟨"auth", hostId⟩
    let actions : List Action :=
      [.listen "h1", .listen "h2", .record (.create a), .tell (.create a), .collectAuthority,
        .forwardHost "h1" (inbox "h1"), .serveHost "h1", .record (.update moved),
        .tell (.update moved), .collectAuthority, .collectAuthority,
        .forwardHost "h2" (inbox "h2"), .forwardHost "h2" (inbox "h2"), .serveHost "h2",
        .serveHost "h2"]
    let w := installation ["h1", "h2"]
    w.Fresh "auth" ∧ (w.hosts.map fun entry => entry.2.id).Nodup ∧
      w.Allows "auth" (fun _ _ => True) none actions ∧ (w.actAll actions).Quiet ∧
      ∃ h h', (w.actAll actions).host? "h1" = some h ∧ (w.actAll actions).host? "h2" = some h' ∧
        a.id ∈ h.agentIds ∧ a.id ∈ h'.agentIds := by
  intro a moved inbox actions w
  -- the agent is told to stop on the second host, where it does not run yet
  have hend : (((w.actAll actions).host? "h1").any (fun h => decide (a.id ∈ h.agentIds)) &&
      ((w.actAll actions).host? "h2").any (fun h => decide (a.id ∈ h.agentIds)) &&
      decide (w.actAll actions).Quiet) = true := by
    decide +kernel
  obtain ⟨hboth, hquiet⟩ := Bool.and_eq_true_iff.mp hend
  obtain ⟨hany, hany'⟩ := Bool.and_eq_true_iff.mp hboth
  obtain ⟨h, hhost, hlive⟩ := (Option.any_eq_true _ _).mp hany
  obtain ⟨h', hhost', hlive'⟩ := (Option.any_eq_true _ _).mp hany'
  have ha : Topic.NamesAgent "auth" a.id := .of_no_quote (by decide) (by decide) (by decide)
  refine ⟨fresh_installation (by decide), by decide, ?_, of_decide_eq_true hquiet, h, h', hhost,
    hhost', of_decide_eq_true hlive, of_decide_eq_true hlive'⟩
  exact ⟨⟨rfl, ha, trivial⟩, rfl, ⟨rfl, ha, trivial⟩, rfl, rfl⟩

end World

end Coordination
