import Coordination.Proofs.World.Actions
/-!
# What an action does to one host

Each action moves the view of every host in one of the ways in which views move, and leaves the host
able to follow its next instructions.
-/

namespace Coordination.Host

/-- What the host is still to do: what waits in its inbox, and then what the authority has sent and
the broker has not taken. -/
def coming (authorityId : String) (accepted : List RawMessage) (h : Host) : List Instruction :=
  (h.bus.waiting h.inbox).map (Message.instruction authorityId h.id) ++
    received authorityId h.id accepted

/-- What hosts have to expect of the authority: the records, what it sent and the broker has not
taken, and the change that it was not told of yet. -/
structure Outlook where
  records : Records
  accepted : List RawMessage
  due : Option Change

/-- What a host will be told once the authority was told of the change that is due. -/
def Outlook.instructions (o : Outlook) (hostId : String) : List Instruction :=
  (o.due.map fun c => c.instructions hostId).getD []

def view (authorityId : String) (o : Outlook) (h : Host) : View where
  records := o.records
  listens := !(h.bus.line h.inbox).isEmpty
  coming := h.coming authorityId o.accepted ++ o.instructions h.id
  live := h.live

/-- A host that takes part: it is obedient, it runs nobody before it listens, all that it sends goes
to the authority, and all that is to run on it can run. -/
structure Enrolled (authorityId : String) (accepted : List RawMessage) (h : Host) : Prop where
  obedient : h.Obedient authorityId
  names : Topic.NamesHost authorityId h.id
  deaf : h.bus.line h.inbox = [] → h.agents = []
  reports : ∀ raw ∈ h.bus.accepted, raw.topic = h.topics.publishToAuthority
  started : ∀ i ∈ h.coming authorityId accepted, ∀ id ∈ i.started, Topic.Names authorityId id

/-- An action of which the host takes notice. -/
structure Steps (authorityId : String) (p : Records → Change → Prop) (o : Outlook) (h : Host)
    (o' : Outlook) (h' : Host) : Prop where
  id : h'.id = h.id
  enrolled : h'.Enrolled authorityId o'.accepted
  moves : View.Moves p h.id (h.view authorityId o) (h'.view authorityId o')

section Enrolled

variable {authorityId : String} {p : Records → Change → Prop} {o : Outlook}
  {accepted : List RawMessage} {h : Host}

theorem Enrolled.inbox_eq (he : h.Enrolled authorityId accepted) :
    h.inbox = Generator.subscribeAsHost ⟨authorityId, h.id⟩ := by
  unfold inbox
  rw [he.obedient.topics]

theorem view_of_line_nil (hnil : h.bus.line h.inbox = []) :
    h.view authorityId o =
      ⟨o.records, false, h.coming authorityId o.accepted ++ o.instructions h.id, h.live⟩ := by
  unfold view
  rw [hnil]
  rfl

theorem view_of_attends (hattends : h.bus.Attends h.inbox) :
    h.view authorityId o =
      ⟨o.records, true, h.coming authorityId o.accepted ++ o.instructions h.id, h.live⟩ := by
  obtain ⟨s, hs, -⟩ := hattends
  unfold view
  rw [hs]
  rfl

/-- Nothing happens to the host. -/
theorem Enrolled.steps_self (he : h.Enrolled authorityId o.accepted) :
    Steps authorityId p o h o h :=
  ⟨rfl, he, .still _⟩

/-- An enrolled host does not listen, or attends to its inbox. -/
theorem Enrolled.line_cases (he : h.Enrolled authorityId accepted) :
    h.bus.line h.inbox = [] ∨ h.bus.Attends h.inbox :=
  he.obedient.line

/-- A change of the bus after which the host takes part as before. -/
theorem Enrolled.of_bus (he : h.Enrolled authorityId accepted) (bus : Bus)
    (accepted' : List RawMessage) (hconnected : bus.connected = h.bus.connected)
    (hdown : bus.down = h.bus.down)
    (hfilters : ∀ f ∈ bus.filters, f = h.inbox ∨ f ∈ h.bus.filters)
    (hline : bus.line h.inbox = [] ∧ h.bus.line h.inbox = [] ∨ bus.Attends h.inbox)
    (hreports : ∀ raw ∈ bus.accepted, raw.topic = h.topics.publishToAuthority)
    (hcoming : ∀ i ∈ coming authorityId accepted' { h with bus := bus },
      i ∈ h.coming authorityId accepted) :
    Enrolled authorityId accepted' { h with bus := bus } where
  obedient := he.obedient.of_bus (hconnected.trans he.obedient.connected)
    (hdown.trans he.obedient.down) hfilters (hline.imp_left And.left)
  names := he.names
  deaf hnil := by
    rcases hline with ⟨-, hold⟩ | hattends
    · exact he.deaf hold
    · exact absurd hnil hattends.line_ne_nil
  reports := hreports
  started i hi := he.started i (hcoming i hi)

/-- A change of the bus that keeps the table, the line of the inbox and what waits in it. -/
theorem Enrolled.steps_bus (he : h.Enrolled authorityId o.accepted) {bus : Bus}
    (hconnected : bus.connected = h.bus.connected) (hdown : bus.down = h.bus.down)
    (hfilters : bus.filters = h.bus.filters)
    (hnil : h.bus.line h.inbox = [] → bus.line h.inbox = [])
    (hattends : h.bus.Attends h.inbox →
      bus.Attends h.inbox ∧ bus.waiting h.inbox = h.bus.waiting h.inbox)
    (hreports : ∀ raw ∈ bus.accepted, raw.topic = h.topics.publishToAuthority) :
    Steps authorityId p o h o { h with bus := bus } := by
  let h' : Host := { h with bus := bus }
  have hcoming : bus.waiting h.inbox = h.bus.waiting h.inbox →
      h'.coming authorityId o.accepted = h.coming authorityId o.accepted := by
    intro hwaiting
    show (bus.waiting h.inbox).map _ ++ _ = _
    rw [hwaiting]
    rfl
  have hsteps := he.of_bus bus o.accepted hconnected hdown
    (fun f hf => .inr (hfilters ▸ hf))
  -- either nobody listens on the inbox, before and after, or one subscription does
  rcases he.line_cases with hold | hold
  · -- where no subscription leads to the inbox, nothing waits before or after
    have hnew := hnil hold
    have hsame := hcoming (by rw [Bus.waiting_of_line_nil hnew, Bus.waiting_of_line_nil hold])
    refine ⟨rfl, hsteps (.inl ⟨hnew, hold⟩) hreports fun i hi => hsame ▸ hi, ?_⟩
    rw [view_of_line_nil hold, view_of_line_nil (h := h') hnew, hsame]
    exact .still _
  · obtain ⟨hnew, hwaiting⟩ := hattends hold
    have hsame := hcoming hwaiting
    refine ⟨rfl, hsteps (.inr hnew) hreports fun i hi => hsame ▸ hi, ?_⟩
    rw [view_of_attends hold, view_of_attends (h := h') hnew, hsame]
    exact .still _

/-! ## What the host does -/

/-- A host that listens starts to get its messages. -/
theorem Enrolled.listen (he : h.Enrolled authorityId o.accepted) :
    Steps authorityId p o h o h.listen := by
  unfold Host.listen
  rcases h.bus.subscribe_cases h.inbox h.inbox with ⟨e, hfails⟩ | ⟨-, hnew, hok⟩
  · rw [hfails]
    exact he.steps_self
  · rw [hok]
    have hnil : h.bus.line h.inbox = [] := by
      rcases he.line_cases with hnil | ⟨s, hs, hworks⟩
      · exact hnil
      · -- whoever attends to the inbox has it in the table
        refine absurd ?_ hnew
        have hmem : s ∈ h.bus.subscriptions := by
          have hline : s ∈ h.bus.line h.inbox := by
            rw [hs]
            exact List.mem_singleton_self s
          exact List.mem_of_mem_filter hline
        exact List.mem_map.mpr ⟨s, List.mem_filter.mpr ⟨hmem, hworks.registered⟩, hworks.filter⟩
    -- the new subscription is the only one that leads to the inbox, and nothing waits there yet
    obtain ⟨hattends, hempty⟩ := Bus.attends_subscribed (b := h.bus) hnil
    let h' : Host := { h with bus := h.bus.subscribed h.inbox h.inbox }
    have hcoming : h'.coming authorityId o.accepted = h.coming authorityId o.accepted := by
      unfold coming
      rw [Bus.waiting_of_line_nil hnil]
      show ((h.bus.subscribed h.inbox h.inbox).waiting h.inbox).map _ ++ _ = _
      rw [hempty]
    refine ⟨rfl, he.of_bus h'.bus o.accepted rfl rfl (fun f hf => ?_) (.inr hattends)
      he.reports fun i hi => hcoming ▸ hi, ?_⟩
    · rw [Bus.filters_subscribed, List.mem_append, List.mem_singleton] at hf
      exact hf.symm
    · show View.Moves p h.id (h.view authorityId o) (h'.view authorityId o)
      rw [view_of_line_nil hnil, view_of_attends (h := h') hattends, hcoming]
      exact .heard

/-- A host that announces itself sends one message to the authority. -/
theorem Enrolled.report (he : h.Enrolled authorityId o.accepted) :
    Steps authorityId p o h o h.report := by
  obtain ⟨hconnected, hdown, hsubscriptions, haccepted⟩ :=
    h.bus.publishEvent_frame h.topics.publishToAuthority (.hostConnect h.snapshot)
  refine he.steps_bus hconnected hdown ?_ ?_ ?_ ?_
  · exact h.bus.filters_publishEvent _ _
  · unfold Bus.line
    rw [hsubscriptions]
    exact fun hnil => hnil
  · unfold Bus.Attends Bus.waiting Bus.line
    rw [hsubscriptions]
    exact fun hattends => ⟨hattends, rfl⟩
  · intro raw hraw
    rcases haccepted raw hraw with hold | hnew
    · exact he.reports raw hold
    · exact hnew

theorem Enrolled.forward (he : h.Enrolled authorityId o.accepted) (handler : String) :
    Steps authorityId p o h o { h with bus := h.bus.forward handler } := by
  refine he.steps_bus rfl rfl ?_ ?_ (fun hattends => hattends.forward handler) he.reports
  · exact Bus.filters_congr
      (Bus.table_mapSubscriptions _ _ fun s => ⟨s.forward_frame.1, s.forward_frame.2.2⟩)
  · intro hnil
    unfold Bus.forward
    rw [Bus.line_mapHandler fun s => s.forward_frame.2.1, hnil]
    exact ite_self _

/-- The transport of the host gives a message away. -/
theorem Enrolled.dropAccepted (he : h.Enrolled authorityId o.accepted) :
    Steps authorityId p o h o { h with bus := h.bus.dropAccepted } := by
  exact he.steps_bus rfl rfl rfl (fun hnil => hnil) (fun hattends => ⟨hattends, rfl⟩)
    fun raw hraw => he.reports raw (List.mem_of_mem_tail hraw)

/-- The broker routes a message that is not for the host, which may have been its own. -/
theorem Enrolled.route_other (he : h.Enrolled authorityId o.accepted) {raw : RawMessage}
    (hother : Topic.matches h.inbox raw.topic = false) {raws : List RawMessage}
    (hraws : ∀ x ∈ raws, x ∈ h.bus.accepted) :
    Steps authorityId p o h o
      { h with bus := { h.bus.route raw with accepted := raws } } := by
  refine he.steps_bus rfl rfl (Bus.filters_congr (h.bus.drifts_route raw).table) ?_ ?_
    fun x hx => he.reports x (hraws x hx)
  · intro hnil
    show (h.bus.route raw).line h.inbox = []
    rw [Bus.line_route, hnil]
    rfl
  · intro hattends
    obtain ⟨hattends', hwaiting⟩ := hattends.route raw
    refine ⟨hattends', ?_⟩
    show (h.bus.route raw).waiting h.inbox = h.bus.waiting h.inbox
    rw [hwaiting, List.filter_singleton, hother]
    exact List.append_nil _

/-- What a host sends is for no host. -/
theorem Enrolled.not_matches {h₀ : Host} {accepted₀ : List RawMessage}
    (he : h.Enrolled authorityId o.accepted) (he₀ : h₀.Enrolled authorityId accepted₀)
    (hauthority : '/' ∉ authorityId.toList) :
    Topic.matches h.inbox h₀.topics.publishToAuthority = false := by
  have htopic : h₀.topics.publishToAuthority =
      Topic.event h₀.id authorityId Topic.absent Topic.absent := by
    rw [he₀.obedient.topics]
    unfold Generator.publishToAuthority Generator.publishTo Generator.senderSegment
    rw [if_neg he₀.names.ne_authority]
    rfl
  rw [← Bool.not_eq_true, he.inbox_eq, htopic,
    he.names.matches_iff hauthority he₀.names.slash_not_mem]
  exact fun hparts => he.names.ne_absent hparts.1.symm

/-! ## What the authority sends -/

theorem received_cons (authorityId hostId : String) (raw : RawMessage) (raws : List RawMessage) :
    received authorityId hostId (raw :: raws) =
      received authorityId hostId [raw] ++ received authorityId hostId raws :=
  received_append authorityId hostId [raw] raws

/-- The broker takes a message of the authority and routes it: it waits in the inbox, or it is lost
because the host does not listen. -/
theorem Enrolled.route {raw : RawMessage} {r : Records} {due : Option Change}
    (he : h.Enrolled authorityId (raw :: accepted)) :
    Steps authorityId p ⟨r, raw :: accepted, due⟩ h ⟨r, accepted, due⟩
      { h with bus := h.bus.route raw } := by
  let h' : Host := { h with bus := h.bus.route raw }
  have hfilters := Bus.filters_congr (h.bus.drifts_route raw).table
  have hsteps := he.of_bus (h.bus.route raw) accepted rfl rfl
    (fun f hf => .inr (hfilters ▸ hf))
  rcases he.line_cases with hnil | hattends
  · -- nobody listens: the message is gone, and nobody is live who could miss it
    have hnil' : (h.bus.route raw).line h.inbox = [] := by
      rw [Bus.line_route, hnil]
      rfl
    have hbefore : h.coming authorityId (raw :: accepted) =
        received authorityId h.id [raw] ++ received authorityId h.id accepted := by
      unfold coming
      rw [Bus.waiting_of_line_nil hnil, received_cons, List.map_nil, List.nil_append]
    have hafter : h'.coming authorityId accepted = received authorityId h.id accepted := by
      unfold coming
      rw [show h'.bus.waiting h'.inbox = [] from Bus.waiting_of_line_nil hnil', List.map_nil,
        List.nil_append]
    have hnobody : h.live = ∅ := by
      unfold live agentIds
      rw [he.deaf hnil]
      exact Set.eq_empty_of_forall_notMem fun id hid => nomatch hid
    refine ⟨rfl, hsteps (.inl ⟨hnil', hnil⟩) he.reports fun i hi => ?_, ?_⟩
    · rw [hbefore]
      exact List.mem_append_right _ (hafter ▸ hi)
    · rw [view_of_line_nil hnil, view_of_line_nil (h := h') hnil', hbefore, hafter,
        show h'.live = h.live from rfl, hnobody, received_singleton]
      -- the message is an instruction to the host, or none
      split
      · exact .lost
      · exact .still _
  · -- the message moves from the front of one queue to the back of the other
    obtain ⟨hattends', hwaiting⟩ := hattends.route raw
    have hcoming : h'.coming authorityId accepted = h.coming authorityId (raw :: accepted) := by
      show ((h.bus.route raw).waiting h.inbox).map _ ++ _ = _
      rw [hwaiting, List.map_append, List.append_assoc]
      unfold coming
      rw [received_cons authorityId h.id raw accepted, he.inbox_eq]
      rfl
    refine ⟨rfl, hsteps (.inr hattends') he.reports fun i hi => hcoming ▸ hi, ?_⟩
    rw [view_of_attends hattends, view_of_attends (h := h') hattends', hcoming]
    exact .still _

/-- The records change or the authority sends messages, while nothing happens to the host. -/
theorem Enrolled.sent (he : h.Enrolled authorityId o.accepted) {o' : Outlook}
    {raws : List RawMessage} (haccepted : o'.accepted = o.accepted ++ raws)
    (hstarted : ∀ i ∈ received authorityId h.id raws, ∀ id ∈ i.started,
      Topic.Names authorityId id)
    (hmoves : ∀ listens is live,
      View.Moves p h.id ⟨o.records, listens, is ++ o.instructions h.id, live⟩
        ⟨o'.records, listens, is ++ received authorityId h.id raws ++ o'.instructions h.id, live⟩) :
    Steps authorityId p o h o' h := by
  have hcoming : h.coming authorityId o'.accepted =
      h.coming authorityId o.accepted ++ received authorityId h.id raws := by
    unfold coming
    rw [haccepted, received_append, List.append_assoc]
  refine ⟨rfl, ⟨he.obedient, he.names, he.deaf, he.reports, ?_⟩, ?_⟩
  · intro i hi
    rw [hcoming, List.mem_append] at hi
    rcases hi with hold | hnew
    · exact he.started i hold
    · exact hstarted i hnew
  · unfold view
    rw [hcoming]
    exact hmoves _ _ _

/-! ## What the host handles -/

/-- The host takes the first message out of its inbox, and is still to do all the others. -/
theorem Enrolled.dropFirst (he : h.Enrolled authorityId accepted) {m : Message}
    {rest : List Message} (hinbox : h.bus.inbox h.inbox = m :: rest) :
    let h₁ : Host := { h with bus := h.bus.dropFirst h.inbox }
    h.bus.Attends h.inbox ∧ h₁.bus.Attends h.inbox ∧ h₁.Enrolled authorityId accepted ∧
      h.coming authorityId accepted =
        m.instruction authorityId h.id :: h₁.coming authorityId accepted := by
  intro h₁
  -- there is a message, so that somebody attends to the inbox
  have hattends : h.bus.Attends h.inbox := by
    refine he.line_cases.resolve_left fun hnil => ?_
    rw [Bus.inbox_eq_line, hnil] at hinbox
    cases hinbox
  obtain ⟨hattends', hwaiting⟩ := hattends.dropFirst hinbox
  have hfilters : h₁.bus.filters = h.bus.filters :=
    Bus.filters_congr (Bus.table_mapSubscriptions _ _ fun _ => ⟨rfl, rfl⟩)
  have hcoming : h.coming authorityId accepted =
      m.instruction authorityId h.id :: h₁.coming authorityId accepted := by
    unfold coming
    rw [hwaiting]
    rfl
  refine ⟨hattends, hattends', ?_, hcoming⟩
  refine he.of_bus h₁.bus accepted rfl rfl (fun f hf => .inr (hfilters ▸ hf)) (.inr hattends')
    he.reports fun i hi => ?_
  rw [hcoming]
  exact List.mem_cons_of_mem _ hi

/-- The host handles the first message in its inbox, and does what it says. -/
theorem Enrolled.serve (he : h.Enrolled authorityId o.accepted) {m : Message} {rest : List Message}
    (hinbox : h.bus.inbox h.inbox = m :: rest) : ∃ is,
    h.view authorityId o = ⟨o.records, true, m.instruction authorityId h.id :: is, h.live⟩ ∧
    h.serveFirst.view authorityId o =
      ⟨o.records, true, is, (m.instruction authorityId h.id).apply h.live⟩ ∧
    h.serveFirst.id = h.id ∧ h.serveFirst.Enrolled authorityId o.accepted ∧
    h.serveFirst.bus.line h.inbox = (h.bus.dropFirst h.inbox).line h.inbox := by
  obtain ⟨hattends, hattends', he₁, hcoming⟩ := he.dropFirst hinbox
  let h₁ : Host := { h with bus := h.bus.dropFirst h.inbox }
  have hstarted : ∀ id ∈ (m.instruction authorityId h.id).started, Topic.Names authorityId id :=
    he.started _ (by rw [hcoming]; exact List.mem_cons_self)
  obtain ⟨hfollows, hlive⟩ := he₁.obedient.handle (m := m) hstarted
  have hserve : h.serveFirst = h₁.handle m := by
    unfold serveFirst
    rw [hinbox]
  have hinbox' : (h₁.handle m).inbox = h.inbox := by
    unfold inbox
    rw [hfollows.topics]
  -- the line did not change while the message was handled
  have hline : (h₁.handle m).bus.line (h₁.handle m).inbox = h₁.bus.line h.inbox := by
    rw [hinbox']
    exact hfollows.line
  have hattends'' : (h₁.handle m).bus.Attends (h₁.handle m).inbox := by
    unfold Bus.Attends
    rw [hline, hinbox']
    exact hattends'
  have hcoming' : (h₁.handle m).coming authorityId o.accepted =
      h₁.coming authorityId o.accepted := by
    unfold coming Bus.waiting
    rw [hline, hfollows.id]
    rfl
  rw [hserve]
  refine ⟨h₁.coming authorityId o.accepted ++ o.instructions h.id, ?_, ?_, hfollows.id, ?_,
    hfollows.line⟩
  · rw [view_of_attends hattends, hcoming]
    rfl
  · rw [view_of_attends hattends'', hcoming', hlive, hfollows.id]
    rfl
  · refine ⟨hfollows.obedient, ?_, ?_, ?_, ?_⟩
    · rw [hfollows.id]
      exact he.names
    · exact fun hnone => absurd hnone hattends''.line_ne_nil
    · rw [hfollows.accepted, hfollows.topics]
      exact he.reports
    · rw [hcoming']
      exact he₁.started

theorem Enrolled.serveFirst (he : h.Enrolled authorityId o.accepted) :
    Steps authorityId p o h o h.serveFirst := by
  cases hinbox : h.bus.inbox h.inbox with
  | nil =>
    have hserve : h.serveFirst = h := by
      unfold Host.serveFirst
      rw [hinbox]
    rw [hserve]
    exact he.steps_self
  | cons m rest =>
    obtain ⟨is, hview, hview', hid, he', -⟩ := he.serve hinbox
    refine ⟨hid, he', ?_⟩
    rw [hview, hview']
    exact .followed

end Enrolled

end Coordination.Host
