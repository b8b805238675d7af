import Coordination.Proofs.World.Enrolled
/-!
# What an action does to all hosts

A world whose authority is up and whose hosts take part stays so, whatever happens next, and each
action moves the view of every host in one of the ways in which views move.
-/

namespace Coordination.World

/-- What the hosts have to expect of the authority. -/
def outlook (w : World) (due : Option Change) : Host.Outlook :=
  ⟨w.repository.records, w.accepted, due⟩

/-- An authority that is up, over records that it can tell; the change that it is still to be told
of is recorded. -/
structure Governed (authorityId : String) (p : Records → Change → Prop) (due : Option Change)
    (w : World) : Prop where
  authority : ∃ a, w.authority = some a ∧ a.Presides authorityId
  up : w.repository.down = []
  records : w.repository.records.Tellable authorityId
  pending : ∀ c, due = some c → Topic.NamesAgent authorityId c.agent.id ∧
    c.Recorded w.repository.records ∧ ∃ r, p r c

/-- A governed world in which all hosts take part. -/
structure Orderly (authorityId : String) (p : Records → Change → Prop) (due : Option Change)
    (w : World) : Prop extends Governed authorityId p due w where
  hosts : ∀ label h, w.host? label = some h → h.Enrolled authorityId w.accepted

/-- What an action does to an orderly world: it is governed after it, and every host takes a
step. -/
structure Progress (authorityId : String) (p : Records → Change → Prop) (due : Option Change)
    (w : World) (due' : Option Change) (w' : World) : Prop
    extends Governed authorityId p due' w' where
  hosts : ∀ label, ∃ f : Host → Host, w'.host? label = (w.host? label).map f ∧
    ∀ h, w.host? label = some h →
      Host.Steps authorityId p (w.outlook due) h (w'.outlook due') (f h)

variable {authorityId : String} {p : Records → Change → Prop} {due due' : Option Change}
  {w w' : World} {a : Authority}

theorem Progress.orderly (hprogress : Progress authorityId p due w due' w') :
    w'.Orderly authorityId p due' where
  toGoverned := hprogress.toGoverned
  hosts label h' hh' := by
    obtain ⟨f, hf, hsteps⟩ := hprogress.hosts label
    rw [hf] at hh'
    obtain ⟨h, hh, rfl⟩ := Option.map_eq_some_iff.mp hh'
    exact (hsteps h hh).enrolled

theorem accepted_eq (h : w.authority = some a) : w.accepted = a.bus.accepted := by
  unfold accepted
  rw [h]
  rfl

theorem Governed.repository_eq (hw : w.Governed authorityId p due) :
    w.repository = ⟨w.repository.records, []⟩ := by
  rw [← hw.up]

theorem Orderly.progress_self (hw : w.Orderly authorityId p due) :
    Progress authorityId p due w due w where
  toGoverned := hw.toGoverned
  hosts label := ⟨id, Option.map_id_apply.symm, fun h hh =>
    Host.Enrolled.steps_self (o := w.outlook due) (hw.hosts label h hh)⟩

/-! ## Steps of the hosts -/

theorem updateHost_frame (w : World) (label : String) (f : Host → Host) :
    (w.updateHost label f).repository = w.repository ∧
      (w.updateHost label f).authority = w.authority := by
  unfold updateHost
  split <;> exact ⟨rfl, rfl⟩

theorem outlook_updateHost (w : World) (label : String) (f : Host → Host) :
    (w.updateHost label f).outlook due = w.outlook due := by
  obtain ⟨hrepository, hauthority⟩ := w.updateHost_frame label f
  unfold outlook accepted
  rw [hrepository, hauthority]

/-- A world with the same authority over the same records is governed, too. -/
theorem Governed.congr (hw : w.Governed authorityId p due)
    (hrepository : w'.repository = w.repository) (hauthority : w'.authority = w.authority) :
    w'.Governed authorityId p due := by
  refine ⟨?_, ?_, ?_, ?_⟩
  · rw [hauthority]
    exact hw.authority
  all_goals rw [hrepository]
  · exact hw.up
  · exact hw.records
  · exact hw.pending

/-- One host does something on its own. -/
theorem Orderly.progress_updateHost (hw : w.Orderly authorityId p due) (label : String)
    {f : Host → Host}
    (hf : ∀ h, h.Enrolled authorityId w.accepted →
      Host.Steps authorityId p (w.outlook due) h (w.outlook due) (f h)) :
    Progress authorityId p due w due (w.updateHost label f) := by
  obtain ⟨hrepository, hauthority⟩ := w.updateHost_frame label f
  refine ⟨hw.toGoverned.congr hrepository hauthority,
    fun other => ⟨_, w.host?_updateHost label f other, fun h hh => ?_⟩⟩
  rw [outlook_updateHost]
  by_cases heq : other = label
  · rw [if_pos heq]
    exact hf h (hw.hosts other h hh)
  · rw [if_neg heq]
    exact Host.Enrolled.steps_self (o := w.outlook due) (hw.hosts other h hh)

/-! ## Steps of the authority -/

theorem Orderly.progress_record (hw : w.Orderly authorityId p none) {c : Change}
    (hc : Topic.NamesAgent authorityId c.agent.id) (hpc : p w.repository.records c) :
    Progress authorityId p none w (some c) (w.act (.record c)) where
  authority := hw.authority
  up := hw.up
  records := hw.records.record hc
  pending c' hc' := by
    cases hc'
    exact ⟨hc, c.recorded_record w.repository.records, _, hpc⟩
  hosts label := by
    refine ⟨id, Option.map_id_apply.symm, fun h hh => ?_⟩
    refine (hw.hosts label h hh).sent (List.append_nil _).symm (fun i hi => nomatch hi) ?_
    intro listens is live
    show View.Moves p h.id ⟨_, _, is ++ [], _⟩ ⟨_, _, is ++ [] ++ c.instructions h.id, _⟩
    rw [List.append_nil]
    exact .changed hw.records.nodup hpc

/-- The authority sends messages, and the records change in no way that concerns the hosts. -/
theorem Orderly.progress_sent (hw : w.Orderly authorityId p due) (ha : w.authority = some a)
    {a' : Authority} {r' : Records} {sent : String → List Instruction}
    (hp : a.Presides authorityId) (hsent : Authority.Instructs authorityId a a' sent)
    (hagents : r'.agents = w.repository.records.agents) (hdue : due' = due ∨ due' = none)
    (hstarted : ∀ hostId, ∀ i ∈ sent hostId, ∀ id ∈ i.started, Topic.Names authorityId id)
    (hmoves : ∀ hostId listens is live, View.Moves p hostId
      ⟨w.repository.records, listens, is ++ (w.outlook due).instructions hostId, live⟩
      ⟨r', listens, is ++ sent hostId ++ (w.outlook due').instructions hostId, live⟩) :
    Progress authorityId p due w due'
      { w with authority := some a', repository := ⟨r', []⟩ } := by
  obtain ⟨raws, hsends, hraws⟩ := hsent
  let w₁ : World := { w with authority := some a', repository := ⟨r', []⟩ }
  have haccepted : w₁.accepted = w.accepted ++ raws := by
    rw [accepted_eq ha]
    exact hsends.accepted
  -- the agents on record are the same, so what is due is still recorded
  have hgoverned : w₁.Governed authorityId p due' := by
    refine ⟨⟨a', rfl, hp.sends hsends⟩, rfl, ⟨?_, ?_⟩, fun c hc => ?_⟩
    · show (AgentModel.ids r'.agents).Nodup
      rw [hagents]
      exact hw.records.nodup
    · show ∀ m ∈ r'.agents, _
      rw [hagents]
      exact hw.records.names
    · rcases hdue with rfl | rfl
      · obtain ⟨hnames, hrecorded, hpc⟩ := hw.pending c hc
        exact ⟨hnames, hrecorded.congr hagents, hpc⟩
      · cases hc
  refine ⟨hgoverned, fun label => ⟨id, Option.map_id_apply.symm, fun h hh => ?_⟩⟩
  have he := hw.hosts label h hh
  have hgot := hraws h.id he.names
  refine he.sent haccepted ?_ ?_
  · rw [hgot]
    exact hstarted h.id
  · intro listens is live
    rw [hgot]
    exact hmoves h.id listens is live

/-- The authority is told of the change that is due. -/
theorem Orderly.progress_tell {c : Change} (hw : w.Orderly authorityId p (some c)) :
    Progress authorityId p (some c) w none (w.act (.tell c)) := by
  obtain ⟨a, ha, hp⟩ := hw.authority
  obtain ⟨hnames, hrecorded, -⟩ := hw.pending c rfl
  have hact : w.act (.tell c) = { w with
      authority := some (c.tell a ⟨w.repository.records, []⟩)
      repository := ⟨w.repository.records, []⟩ } := by
    unfold act updateAuthority
    rw [ha, hw.repository_eq]
    rfl
  rw [hact]
  refine hw.progress_sent ha hp (hp.tell hnames hrecorded) rfl (.inr rfl) ?_ ?_
  · intro hostId i hi id hid
    rw [Change.id_of_mem_started hi hid]
    exact hnames.toNames
  · intro hostId listens is live
    -- the hosts have been to hear of the change all along
    show View.Moves p hostId _ ⟨_, _, is ++ c.instructions hostId ++ [], _⟩
    rw [List.append_nil]
    exact .still _

theorem Orderly.progress_serveAuthority (hw : w.Orderly authorityId p due) :
    Progress authorityId p due w due (w.act .serveAuthority) := by
  obtain ⟨a, ha, hp⟩ := hw.authority
  cases hinbox : a.bus.inbox a.inbox with
  | nil =>
    have hact : w.act .serveAuthority = w := by
      unfold act Authority.serveFirst
      simp only [ha, hinbox]
      rw [← ha]
    rw [hact]
    exact hw.progress_self
  | cons m rest =>
    let a₁ : Authority := { a with bus := a.bus.dropFirst a.inbox }
    have hpop : a.Sends [] a₁ := ⟨rfl, rfl, rfl, (List.append_nil _).symm⟩
    -- what the authority does with the message is told by one lemma for all messages
    obtain ⟨a', r', sent, hhandle, hagents, ⟨raws, hsends, hraws⟩, hsent⟩ :=
      (hp.sends hpop).handle w.repository.records m
    have hact : w.act .serveAuthority =
        { w with authority := some a', repository := ⟨r', []⟩ } := by
      unfold act Authority.serveFirst
      simp only [ha, hinbox]
      rw [hw.repository_eq, hhandle]
    rw [hact]
    refine hw.progress_sent ha hp ⟨raws, hpop.trans hsends, hraws⟩ hagents (.inl rfl) ?_ ?_
    · -- a welcome starts those on the roster, and they are on record
      intro hostId i hi id hid
      rcases hsent hostId with hnone | ⟨ids, hwelcome, hids⟩
      · rw [hnone] at hi
        cases hi
      · rw [hwelcome, List.mem_singleton] at hi
        subst hi
        obtain ⟨m, hm, rfl, -⟩ := (hids id).mp hid
        exact (hw.records.names m hm).toNames
    · intro hostId listens is live
      refine .answered hw.records.nodup hagents (hsent hostId) ?_
      cases due with
      | none => exact .inl rfl
      | some c =>
        obtain ⟨-, hrecorded, r₀, hpc⟩ := hw.pending c rfl
        exact .inr ⟨c, r₀, hpc, hrecorded, rfl⟩

/-! ## Steps of the broker -/

theorem Orderly.progress_forwardAuthority (hw : w.Orderly authorityId p due) :
    Progress authorityId p due w due (w.act .forwardAuthority) := by
  obtain ⟨a, ha, hp⟩ := hw.authority
  let a' : Authority := { a with bus := a.bus.forward a.inbox }
  have hact : w.act .forwardAuthority = { w with authority := some a' } := by
    unfold act updateAuthority
    rw [ha]
    rfl
  have hsends : a.Sends [] a' := ⟨rfl, rfl, rfl, (List.append_nil _).symm⟩
  have haccepted : accepted { w with authority := some a' } = w.accepted := by
    rw [accepted_eq ha]
    rfl
  rw [hact]
  refine ⟨⟨⟨a', rfl, hp.sends hsends⟩, hw.up, hw.records, hw.pending⟩,
    fun label => ⟨id, Option.map_id_apply.symm, fun h hh => ?_⟩⟩
  -- the inbox of the authority is none of the hosts' business
  have houtlook : outlook { w with authority := some a' } due = w.outlook due := by
    unfold outlook
    rw [haccepted]
  rw [houtlook]
  exact Host.Enrolled.steps_self (o := w.outlook due) (hw.hosts label h hh)

/-- Routing touches neither the connection nor what was accepted. -/
theorem routeAll_frame (b : Bus) (raws : List RawMessage) :
    (b.routeAll raws).connected = b.connected ∧ (b.routeAll raws).down = b.down ∧
      (b.routeAll raws).accepted = b.accepted := by
  induction raws generalizing b with
  | nil => exact ⟨rfl, rfl, rfl⟩
  | cons raw raws ih => exact ih (b.route raw)

/-- The broker publishes messages in a world whose records are those of `w`. -/
theorem Orderly.progress_publish (hw : w.Orderly authorityId p due)
    (ha : w'.authority = some a) (hp : a.Presides authorityId)
    (hrepository : w'.repository = w.repository) {raws : List RawMessage}
    (hhosts : ∀ label, ∃ f : Host → Host, w'.host? label = (w.host? label).map f ∧
      ∀ h, w.host? label = some h → Host.Steps authorityId p (w.outlook due) h
        ⟨w.repository.records, a.bus.accepted, due⟩
        { f h with bus := (f h).bus.routeAll raws }) :
    Progress authorityId p due w due (w'.publish raws) := by
  -- the authority is offered the messages, too, and stays up
  obtain ⟨hconnected, hdown, haccepted⟩ := routeAll_frame a.bus raws
  let a' : Authority := { a with bus := a.bus.routeAll raws }
  have ha' : (w'.publish raws).authority = some a' := by
    show w'.authority.map _ = _
    rw [ha]
    rfl
  have hp' : a'.Presides authorityId := by
    refine ⟨hp.slash_not_mem, hp.ne_empty, hp.topics, ?_, hdown.trans hp.down⟩
    have hup := hp.connected
    unfold Authority.isConnected at hup ⊢
    rw [← hup, ← hconnected]
  have hrecords : (w'.publish raws).repository = w.repository := hrepository
  have hgoverned : (w'.publish raws).Governed authorityId p due := by
    refine ⟨⟨a', ha', hp'⟩, ?_, ?_, ?_⟩
    all_goals rw [hrecords]
    · exact hw.up
    · exact hw.records
    · exact hw.pending
  refine ⟨hgoverned, fun label => ?_⟩
  obtain ⟨f, hf, hsteps⟩ := hhosts label
  refine ⟨fun h => { f h with bus := (f h).bus.routeAll raws }, ?_, fun h hh => ?_⟩
  · rw [host?_publish, hf, Option.map_map]
    rfl
  · have houtlook : (w'.publish raws).outlook due =
        ⟨w.repository.records, a.bus.accepted, due⟩ := by
      unfold outlook
      rw [hrecords, accepted_eq ha', haccepted]
    rw [houtlook]
    exact hsteps h hh

/-- The broker takes a message of the authority, and whoever it is for gets it. -/
theorem Orderly.progress_collectAuthority (hw : w.Orderly authorityId p due) :
    Progress authorityId p due w due (w.act .collectAuthority) := by
  obtain ⟨a, ha, hp⟩ := hw.authority
  let a' : Authority := { a with bus := a.bus.dropAccepted }
  have ha' : (w.updateAuthority fun a => { a with bus := a.bus.dropAccepted }).authority =
      some a' := by
    unfold updateAuthority
    rw [ha]
    rfl
  have hp' : a'.Presides authorityId :=
    ⟨hp.slash_not_mem, hp.ne_empty, hp.topics, hp.connected, hp.down⟩
  refine hw.progress_publish ha' hp' rfl fun label => ⟨id, Option.map_id_apply.symm, fun h hh => ?_⟩
  have he := hw.hosts label h hh
  unfold outlook
  show Host.Steps authorityId p ⟨_, w.accepted, due⟩ h ⟨_, a.bus.accepted.tail, due⟩ _
  rw [← accepted_eq ha]
  -- the message that leaves the transport is the one that is routed
  cases haccepted : w.accepted with
  | nil =>
    rw [haccepted] at he
    exact he.steps_self
  | cons raw rest =>
    rw [haccepted] at he
    exact he.route

/-- The broker takes a message of a host, which is for the authority. -/
theorem Orderly.progress_collectHost (hw : w.Orderly authorityId p due) (label : String) :
    Progress authorityId p due w due (w.act (.collectHost label)) := by
  obtain ⟨a, ha, hp⟩ := hw.authority
  obtain ⟨hrepository, hauthority⟩ :=
    w.updateHost_frame label fun h => { h with bus := h.bus.dropAccepted }
  refine hw.progress_publish (hauthority.trans ha) hp hrepository
    fun other => ⟨_, w.host?_updateHost label _ other, fun h hh => ?_⟩
  rw [← accepted_eq ha]
  show Host.Steps authorityId p (w.outlook due) h (w.outlook due) _
  have he : h.Enrolled authorityId (w.outlook due).accepted := hw.hosts other h hh
  cases hlabel : w.host? label with
  | none =>
    have hne : other ≠ label := by
      intro heq
      rw [heq, hlabel] at hh
      cases hh
    rw [if_neg hne]
    exact he.steps_self
  | some h₀ =>
    -- the host gives a message away, and all hosts, itself included, are offered it
    have he₀ := hw.hosts label h₀ hlabel
    rw [Option.map_some, Option.getD_some]
    cases haccepted : h₀.bus.accepted with
    | nil =>
      by_cases heq : other = label
      · rw [if_pos heq]
        exact he.dropAccepted
      · rw [if_neg heq]
        exact he.steps_self
    | cons raw rest =>
      -- what a host sends is for the authority, so that it waits in no inbox of a host
      have htopic : raw.topic = h₀.topics.publishToAuthority :=
        he₀.reports raw (haccepted ▸ List.mem_cons_self)
      have hother : Topic.matches h.inbox raw.topic = false := by
        rw [htopic]
        exact he.not_matches he₀ hp.slash_not_mem
      by_cases heq : other = label
      · rw [if_pos heq]
        exact he.route_other hother fun x hx => List.mem_of_mem_tail hx
      · rw [if_neg heq]
        exact he.route_other hother fun x hx => hx

/-! ## Steps and runs -/

theorem Orderly.progress (hw : w.Orderly authorityId p due) {action : Action}
    {actions : List Action} (hallows : w.Allows authorityId p due (action :: actions)) :
    ∃ due', Progress authorityId p due w due' (w.act action) ∧
      (w.act action).Allows authorityId p due' actions := by
  -- only the first two actions change what is due; the others are steps on the way
  cases action with
  | record c =>
    obtain ⟨⟨rfl, hc, hpc⟩, hrest⟩ := hallows
    exact ⟨some c, hw.progress_record hc hpc, hrest⟩
  | tell c =>
    obtain ⟨rfl, hrest⟩ := hallows
    exact ⟨none, hw.progress_tell, hrest⟩
  | listen label => exact ⟨due, hw.progress_updateHost label fun h he => he.listen, hallows⟩
  | report label => exact ⟨due, hw.progress_updateHost label fun h he => he.report, hallows⟩
  | collectAuthority => exact ⟨due, hw.progress_collectAuthority, hallows⟩
  | collectHost label => exact ⟨due, hw.progress_collectHost label, hallows⟩
  | forwardAuthority => exact ⟨due, hw.progress_forwardAuthority, hallows⟩
  | forwardHost label handler =>
    exact ⟨due, hw.progress_updateHost label fun h he => he.forward handler, hallows⟩
  | serveAuthority => exact ⟨due, hw.progress_serveAuthority, hallows⟩
  | serveHost label =>
    exact ⟨due, hw.progress_updateHost label fun h he => he.serveFirst, hallows⟩

/-- What a run does to a world: every host is still there, and its view has moved step by step; no
change is due in the end. -/
structure Passes (authorityId : String) (p : Records → Change → Prop) (due : Option Change)
    (w w' : World) : Prop where
  orderly : w'.Orderly authorityId p none
  hosts : ∀ label, ∃ f : Host → Host, w'.host? label = (w.host? label).map f ∧
    ∀ h, w.host? label = some h → (f h).id = h.id ∧
      Relation.ReflTransGen (View.Moves p h.id) (h.view authorityId (w.outlook due))
        ((f h).view authorityId (w'.outlook none))

/-- **Every run of allowed actions moves the views of all hosts.** -/
theorem Orderly.passes (hw : w.Orderly authorityId p due) {actions : List Action}
    (hallows : w.Allows authorityId p due actions) :
    Passes authorityId p due w (w.actAll actions) := by
  -- what is due may change with every action, so the induction is for all of it
  induction actions generalizing w due with
  | nil =>
    obtain rfl : due = none := hallows
    exact ⟨hw, fun label => ⟨id, Option.map_id_apply.symm, fun h _ => ⟨rfl, .refl⟩⟩⟩
  | cons action actions ih =>
    obtain ⟨due₁, hprogress, hrest⟩ := hw.progress hallows
    have hpasses := ih hprogress.orderly hrest
    refine ⟨hpasses.orderly, fun label => ?_⟩
    obtain ⟨f, hf, hsteps⟩ := hprogress.hosts label
    obtain ⟨g, hg, hviews⟩ := hpasses.hosts label
    refine ⟨g ∘ f, ?_, fun h hh => ?_⟩
    · rw [← Option.map_map, ← hf]
      exact hg
    · have hstep := hsteps h hh
      have hh' : (w.act action).host? label = some (f h) := by
        rw [hf, hh]
        rfl
      obtain ⟨hid, hmoves⟩ := hviews (f h) hh'
      rw [hstep.id] at hid hmoves
      exact ⟨hid, .head hstep.moves hmoves⟩

end Coordination.World
