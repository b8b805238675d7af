import Coordination.Proofs.World.Progress
/-!
# Messages in batches

A participant may handle all that waits for it at once.  This comes to the same as handling the
first message again and again: whatever a message makes a participant do, it does not look at what
else waits, so that taking a message out of the inbox and handling another one commute.
-/

namespace Coordination

/-! ## The inbox apart -/

namespace Bus

variable {b : Bus} {x : String} {g : List Message → List Message}

/-- The bus with another content of an inbox. -/
def mapInbox (b : Bus) (x : String) (g : List Message → List Message) : Bus :=
  b.mapSubscriptions (fun s => s.handler == x) fun s => { s with inbox := g s.inbox }

theorem mapInbox_mapInbox (g' : List Message → List Message) :
    (b.mapInbox x g).mapInbox x g' = b.mapInbox x (g' ∘ g) := by
  unfold mapInbox mapSubscriptions
  simp only [List.map_map]
  congr 1
  refine List.map_congr_left fun s _ => ?_
  by_cases hs : s.handler = x
  · simp [hs]
  · simp [hs]

/-- An empty inbox is empty after all was taken out. -/
theorem emptyInbox_of_nil (hnil : b.inbox x = []) : b.emptyInbox x = b := by
  have hself : ∀ s ∈ b.subscriptions,
      (if s.handler == x then { s with inbox := [] } else s : Subscription) = s := by
    intro s hs
    have hinbox := List.flatMap_eq_nil_iff.mp hnil s hs
    by_cases hx : s.handler = x
    · rw [if_pos hx] at hinbox
      rw [if_pos (beq_iff_eq.mpr hx), ← hinbox]
    · rw [if_neg (by rwa [beq_iff_eq])]
  unfold emptyInbox mapSubscriptions
  rw [List.map_congr_left hself, List.map_id']

/-- What waits behind the first message. -/
theorem Attends.inbox_dropFirst (h : b.Attends x) {m : Message} {rest : List Message}
    (hinbox : b.inbox x = m :: rest) : (b.dropFirst x).inbox x = rest := by
  obtain ⟨s, hline, -⟩ := h
  rw [inbox_eq_line, hline, List.flatMap_singleton] at hinbox
  rw [inbox_eq_line, line_dropFirst hline, List.flatMap_singleton, hinbox]
  rfl

/-- Changes of single subscriptions commute on the bus as they do on a subscription. -/
theorem mapSubscriptions_comm {p q : Subscription → Bool} {f f' : Subscription → Subscription}
    (hp : ∀ s, p (f' s) = p s) (hq : ∀ s, q (f s) = q s) (hcomm : ∀ s, f' (f s) = f (f' s)) :
    (b.mapSubscriptions p f).mapSubscriptions q f' =
      (b.mapSubscriptions q f').mapSubscriptions p f := by
  unfold mapSubscriptions
  simp only [List.map_map]
  congr 1
  refine List.map_congr_left fun s _ => ?_
  show (if q (if p s then f s else s) then f' (if p s then f s else s)
      else if p s then f s else s) =
    if p (if q s then f' s else s) then f (if q s then f' s else s) else if q s then f' s else s
  by_cases hps : p s = true
  · by_cases hqs : q s = true
    · simp only [hp, hq, hps, hqs, if_true, hcomm]
    · simp [hq, hps, hqs]
  · by_cases hqs : q s = true
    · simp [hp, hps, hqs]
    · simp [hps, hqs]

theorem closeHandler_mapInbox (hg : g [] = []) (handler : String) :
    (b.mapInbox x g).closeHandler handler = (b.closeHandler handler).mapInbox x g := by
  refine mapSubscriptions_comm (fun _ => rfl) (fun _ => rfl) fun s => ?_
  unfold Subscription.deafen
  rw [hg]

theorem unsubscribe_mapInbox (filter : String) :
    (b.mapInbox x g).unsubscribe filter = (b.unsubscribe filter).mapInbox x g :=
  mapSubscriptions_comm (fun _ => rfl) (fun _ => rfl) fun _ => rfl

theorem subscribe_mapInbox (hg : g [] = []) (filter handler : String) :
    (b.mapInbox x g).subscribe filter handler =
      ((b.subscribe filter handler).1, (b.subscribe filter handler).2.mapInbox x g) := by
  have hfilters : (b.mapInbox x g).filters = b.filters :=
    filters_congr (table_mapSubscriptions b _ fun _ => ⟨rfl, rfl⟩)
  have hhas : (b.mapInbox x g).hasFilter filter = b.hasFilter filter := by
    rw [Bool.eq_iff_iff, hasFilter_iff, hasFilter_iff, hfilters]
  have hcall : (b.mapInbox x g).call .subscribe = b.call .subscribe := rfl
  have hconnected : (b.mapInbox x g).connected = b.connected := rfl
  unfold subscribe
  rw [hhas, hcall, hconnected]
  split
  · rfl
  · split
    · rfl
    · cases b.call .subscribe with
      | error e => rfl
      | ok _ =>
        -- the new subscription has nothing in its inbox
        refine Prod.ext rfl ?_
        simp [mapInbox, mapSubscriptions, note, hg]

theorem publishAsync_mapInbox (m : Message) :
    (b.mapInbox x g).publishAsync m =
      ((b.publishAsync m).1, (b.publishAsync m).2.mapInbox x g) := by
  have hconnected : (b.mapInbox x g).connected = b.connected := rfl
  have hcall : (b.mapInbox x g).call .publish = b.call .publish := rfl
  unfold publishAsync
  rw [hconnected, hcall]
  split
  · rfl
  · cases b.call .publish with
    | error e => rfl
    | ok _ => rfl

theorem publishEvent_mapInbox (topic : String) (e : Event) :
    (b.mapInbox x g).publishEvent topic e =
      ((b.publishEvent topic e).1, (b.publishEvent topic e).2.mapInbox x g) := by
  let b' : Bus := { b with clock := b.clock.advance b.now }
  let m : Message := .ofData topic (e.toData (b.clock.stamp b.now))
  show (b'.mapInbox x g).publishAsync m =
    ((b'.publishAsync m).1, (b'.publishAsync m).2.mapInbox x g)
  exact publishAsync_mapInbox m

end Bus

namespace Host

variable {h : Host} {x : String} {g : List Message → List Message}

def mapInbox (h : Host) (x : String) (g : List Message → List Message) : Host :=
  { h with bus := h.bus.mapInbox x g }

theorem createRuntime_mapInbox (agent : AgentModel) :
    (h.mapInbox x g).createRuntime agent =
      ((h.createRuntime agent).1, (h.createRuntime agent).2.mapInbox x g) := by
  have hmake : (h.mapInbox x g).make agent = h.make agent := rfl
  unfold createRuntime
  rw [hmake]
  cases h.make agent with
  | error fault => rfl
  | ok r => rfl

theorem connectRuntime_mapInbox (hg : g [] = []) (r : Runtime) :
    (h.mapInbox x g).connectRuntime r =
      ((h.connectRuntime r).1, (h.connectRuntime r).2.mapInbox x g) := by
  have hrefusal : (h.mapInbox x g).refusal? .connect r.id r.name =
      h.refusal? .connect r.id r.name := rfl
  have hbus : (h.mapInbox x g).bus = h.bus.mapInbox x g := rfl
  unfold connectRuntime
  rw [hrefusal, hbus]
  cases h.refusal? .connect r.id r.name with
  | some fault => rfl
  | none =>
    cases r.agent with
    | none => rfl
    | some a =>
      dsimp only
      unfold Agent.connect CredentialClient.start
      rw [Bus.subscribe_mapInbox hg]
      -- an agent that listens already does nothing, and any other adds its own subscription
      by_cases hlistening : a.credentials.listening = true
      · simp only [hlistening, if_true]
        rfl
      · simp only [hlistening]
        rcases h.bus.subscribe a.credentials.filter a.credentials.filter with ⟨result, bus⟩
        cases result with
        | ok _ => rfl
        | error e => rfl

theorem disconnectRuntime_mapInbox (hg : g [] = []) (r : Runtime) :
    (h.mapInbox x g).disconnectRuntime r = (h.disconnectRuntime r).mapInbox x g := by
  have hrefusal : (h.mapInbox x g).refusal? .disconnect r.id r.name =
      h.refusal? .disconnect r.id r.name := rfl
  have hbus : (h.mapInbox x g).bus = h.bus.mapInbox x g := rfl
  unfold disconnectRuntime
  rw [hrefusal, hbus]
  cases h.refusal? .disconnect r.id r.name with
  | some fault => rfl
  | none =>
    cases r.agent with
    | none => rfl
    | some a =>
      dsimp only
      unfold Agent.disconnect CredentialClient.stop
      rw [Bus.closeHandler_mapInbox hg, Bus.unsubscribe_mapInbox]
      by_cases hlistening : a.credentials.listening = true
      · simp only [hlistening, if_true]
        rfl
      · simp only [hlistening]
        rfl

theorem disposeRuntime_mapInbox (agentId : String) :
    (h.mapInbox x g).disposeRuntime agentId =
      ((h.disposeRuntime agentId).1, (h.disposeRuntime agentId).2.mapInbox x g) := by
  have hrefusal : ∀ name, (h.mapInbox x g).refusal? .dispose agentId name =
      h.refusal? .dispose agentId name := fun _ => rfl
  have hcalls : (h.mapInbox x g).calls = h.calls := rfl
  unfold disposeRuntime
  simp only [hrefusal, hcalls]
  split <;> rfl

theorem agentConnect_mapInbox (hg : g [] = []) (agent : AgentModel) :
    ((h.mapInbox x g).agentConnect agent).2 = (h.agentConnect agent).2.mapInbox x g := by
  have hfound : (h.mapInbox x g).agent? agent.id = h.agent? agent.id := rfl
  unfold agentConnect
  rw [hfound, createRuntime_mapInbox]
  split
  · rfl
  -- the runtime is made before the bus is touched
  · rcases h.createRuntime agent with ⟨made, h₁⟩
    cases made with
    | error fault => rfl
    | ok r =>
      dsimp only
      rw [connectRuntime_mapInbox hg]
      rcases h₁.connectRuntime r with ⟨began, h₂⟩
      cases began with
      | ok r => rfl
      | error fault =>
        dsimp only
        rw [disposeRuntime_mapInbox]

theorem agentDisconnect_mapInbox (hg : g [] = []) (agentId : String) :
    ((h.mapInbox x g).agentDisconnect agentId).2 = (h.agentDisconnect agentId).2.mapInbox x g := by
  have hfound : (h.mapInbox x g).agent? agentId = h.agent? agentId := rfl
  have hremoved : (h.mapInbox x g).removeAgent agentId = (h.removeAgent agentId).mapInbox x g := rfl
  unfold agentDisconnect
  rw [hfound, hremoved]
  cases h.agent? agentId with
  | none => rfl
  | some r =>
    dsimp only
    unfold endAgent
    rw [disconnectRuntime_mapInbox hg, disposeRuntime_mapInbox]
    rfl

theorem welcome_mapInbox (hg : g [] = []) (plugins : List Plugin) (agents : List AgentModel) :
    ((h.mapInbox x g).welcome plugins agents).2 = (h.welcome plugins agents).2.mapInbox x g := by
  let h₀ : Host := { h with registry := (h.registry.reconcile plugins).1 }
  have hfold : agents.foldl (fun h agent => (h.agentConnect agent).2) (h₀.mapInbox x g) =
      (agents.foldl (fun h agent => (h.agentConnect agent).2) h₀).mapInbox x g :=
    List.foldl_hom (fun h : Host => h.mapInbox x g) fun _ agent => agentConnect_mapInbox hg agent
  exact hfold

/-- **What a message makes a host do does not depend on what else waits.** -/
theorem handle_mapInbox (hg : g [] = []) (m : Message) :
    (h.mapInbox x g).handle m = (h.handle m).mapInbox x g := by
  have htopics : (h.mapInbox x g).topics = h.topics := rfl
  have hid : (h.mapInbox x g).id = h.id := rfl
  unfold handle
  rw [htopics, hid]
  split
  · split
    · split
      · exact welcome_mapInbox hg _ _
      · rfl
    · exact agentConnect_mapInbox hg _
    · exact agentDisconnect_mapInbox hg _
    · rfl
  · rfl

theorem foldl_handle_mapInbox (hg : g [] = []) (ms : List Message) (h : Host) :
    ms.foldl handle (h.mapInbox x g) = (ms.foldl handle h).mapInbox x g :=
  List.foldl_hom (fun h : Host => h.mapInbox x g) fun _ m => handle_mapInbox hg m

theorem inbox_foldl_handle (ms : List Message) (h : Host) :
    (ms.foldl handle h).inbox = h.inbox := by
  induction ms generalizing h with
  | nil => rfl
  | cons m ms ih =>
    rw [List.foldl_cons, ih]
    unfold inbox
    rw [(h.steady_handle m).topics]

theorem receive_eq_mapInbox (h : Host) :
    h.receive = ((h.bus.inbox h.inbox).foldl handle h).mapInbox h.inbox fun _ => [] := by
  have hinbox := inbox_foldl_handle (h.bus.inbox h.inbox) h
  unfold receive
  dsimp only
  rw [hinbox]
  rfl

/-- **A host that handles all that waits for it handles one message after another.** -/
theorem Enrolled.receive_eq {authorityId : String} {accepted : List RawMessage}
    (he : h.Enrolled authorityId accepted) :
    h.receive = Host.serveFirst^[(h.bus.inbox h.inbox).length] h := by
  generalize hms : h.bus.inbox h.inbox = ms
  induction ms generalizing h with
  | nil =>
    rw [receive_eq_mapInbox, hms]
    show { h with bus := h.bus.emptyInbox h.inbox } = h
    rw [Bus.emptyInbox_of_nil hms]
  | cons m ms ih =>
    -- what is on record does not matter to the host
    let records : Records := { newId := Nat.repr }
    obtain ⟨-, -, -, hid, he', hline⟩ := he.serve (o := ⟨records, accepted, none⟩) hms
    have hinbox : h.serveFirst.inbox = h.inbox := by
      rw [he'.inbox_eq, hid, he.inbox_eq]
    have hserve : h.serveFirst = (h.handle m).mapInbox h.inbox List.tail := by
      unfold Host.serveFirst
      rw [hms]
      exact handle_mapInbox rfl m
    obtain ⟨hattends, -⟩ := he.dropFirst hms
    have hrest : h.serveFirst.bus.inbox h.serveFirst.inbox = ms := by
      rw [hinbox, Bus.inbox_eq_line, hline, ← Bus.inbox_eq_line]
      exact hattends.inbox_dropFirst hms
    have hsame : h.receive = h.serveFirst.receive := by
      rw [receive_eq_mapInbox, receive_eq_mapInbox, hrest, hinbox, hms, List.foldl_cons, hserve,
        foldl_handle_mapInbox rfl]
      -- whether a message was taken out before does not matter once all are
      unfold mapInbox
      rw [Bus.mapInbox_mapInbox]
      rfl
    rw [hsame, ih he' hrest]
    rfl

end Host

namespace Authority

variable {a : Authority} {x : String} {g : List Message → List Message}

def mapInbox (a : Authority) (x : String) (g : List Message → List Message) : Authority :=
  { a with bus := a.bus.mapInbox x g }

theorem publish_mapInbox (topic : String) (e : Event) :
    (a.mapInbox x g).publish topic e =
      ((a.publish topic e).1, (a.publish topic e).2.mapInbox x g) := by
  unfold publish
  rw [show (a.mapInbox x g).bus = a.bus.mapInbox x g from rfl, Bus.publishEvent_mapInbox]
  rfl

theorem hostConnected_mapInbox (r : Repository) (reported : HostModel) :
    (a.mapInbox x g).hostConnected r reported =
      ((a.hostConnected r reported).1, (a.hostConnected r reported).2.1.mapInbox x g,
        (a.hostConnected r reported).2.2) := by
  unfold hostConnected
  -- the records are asked three times, and each answer may be an error; none looks at the inbox
  cases r.host? reported.id with
  | error e => rfl
  | ok found =>
    cases found with
    | none => rfl
    | some host =>
      dsimp only
      cases r.sync host.id reported.plugins with
      | error e => rfl
      | ok synced =>
        obtain ⟨r', plugins⟩ := synced
        dsimp only
        cases r'.agentsOf host.id with
        | error e => rfl
        | ok agents =>
          dsimp only
          rw [show (a.mapInbox x g).topics = a.topics from rfl, publish_mapInbox]

theorem credentialRequested_mapInbox (r : Repository) (agentId name : String) (jwk : Jwk) :
    (a.mapInbox x g).credentialRequested r agentId name jwk =
      ((a.credentialRequested r agentId name jwk).1,
        (a.credentialRequested r agentId name jwk).2.mapInbox x g) := by
  unfold credentialRequested
  cases r.credential? agentId name with
  | error e => rfl
  | ok found =>
    cases found with
    | none => rfl
    | some value =>
      dsimp only
      rw [show (a.mapInbox x g).cipher = a.cipher from rfl,
        show (a.mapInbox x g).draws = a.draws from rfl]
      cases jwk.encrypt a.cipher a.draws value.toUTF8.toList with
      | error e => rfl
      | ok ciphertext =>
        -- the draw is used up before the answer is published
        have hsent := publish_mapInbox (a := { a with draws := a.draws + 1 }) (x := x) (g := g)
          (a.topics.publishToAgent agentId) (.credentialResponse name ciphertext)
        exact congrArg (fun sent => (sent.1.map fun _ => true, sent.2)) hsent

/-- What a message makes the authority do does not depend on what else waits. -/
theorem handle_mapInbox (r : Repository) (m : Message) :
    (a.mapInbox x g).handle r m = ((a.handle r m).1.mapInbox x g, (a.handle r m).2) := by
  unfold handle
  split
  · rfl
  · split
    · split
      · rw [hostConnected_mapInbox]
      · rfl
    · split
      · rw [credentialRequested_mapInbox]
      · rfl
    · rfl

def handleAll (a : Authority) (r : Repository) (ms : List Message) : Authority × Repository :=
  ms.foldl (fun (a, r) m => handle a r m) (a, r)

theorem handleAll_cons (a : Authority) (r : Repository) (m : Message) (ms : List Message) :
    a.handleAll r (m :: ms) = (a.handle r m).1.handleAll (a.handle r m).2 ms := rfl

theorem handleAll_mapInbox (ms : List Message) (a : Authority) (r : Repository) :
    (a.mapInbox x g).handleAll r ms =
      ((a.handleAll r ms).1.mapInbox x g, (a.handleAll r ms).2) := by
  induction ms generalizing a r with
  | nil => rfl
  | cons m ms ih =>
    rw [handleAll_cons, handleAll_cons, handle_mapInbox]
    exact ih _ _

theorem inbox_handleAll (ms : List Message) (a : Authority) (r : Repository) :
    (a.handleAll r ms).1.inbox = a.inbox := by
  induction ms generalizing a r with
  | nil => rfl
  | cons m ms ih =>
    rw [handleAll_cons, ih]
    unfold inbox
    rw [(a.steady_handle r m).topics]

theorem receive_eq_mapInbox (a : Authority) (r : Repository) :
    a.receive r = ((a.handleAll r (a.bus.inbox a.inbox)).1.mapInbox a.inbox fun _ => [],
      (a.handleAll r (a.bus.inbox a.inbox)).2) := by
  have hinbox := inbox_handleAll (a.bus.inbox a.inbox) a r
  show ((a.handleAll r (a.bus.inbox a.inbox)).1.mapInbox
    (a.handleAll r (a.bus.inbox a.inbox)).1.inbox fun _ => [], _) = _
  rw [hinbox]
  rfl

/-- **An authority that handles all that waits for it handles one message after another.** -/
theorem receive_eq (hattends : a.bus.Attends a.inbox) (r : Repository) :
    a.receive r = (fun (a, r) => a.serveFirst r)^[(a.bus.inbox a.inbox).length] (a, r) := by
  generalize hms : a.bus.inbox a.inbox = ms
  induction ms generalizing a r with
  | nil =>
    rw [receive_eq_mapInbox, hms]
    show ({ a with bus := a.bus.emptyInbox a.inbox }, r) = (a, r)
    rw [Bus.emptyInbox_of_nil hms]
  | cons m ms ih =>
    let a₁ : Authority := (a.handle r m).1.mapInbox a.inbox List.tail
    have hserve : a.serveFirst r = (a₁, (a.handle r m).2) := by
      unfold Authority.serveFirst
      rw [hms]
      exact handle_mapInbox r m
    have hsteady := a.steady_handle r m
    have hinbox : a₁.inbox = a.inbox := by
      show Generator.subscribeAsAuthority (a.handle r m).1.topics = _
      rw [hsteady.topics]
      rfl
    -- the line is that of the bus before, without the first message
    have hline : a₁.bus.line a.inbox = (a.bus.dropFirst a.inbox).line a.inbox := by
      show List.filter _ (List.map _ (a.handle r m).1.bus.subscriptions) = _
      rw [hsteady.subscriptions]
      rfl
    have hattends₁ : a₁.bus.Attends a₁.inbox := by
      obtain ⟨s, hs⟩ := (hattends.dropFirst hms).1
      exact ⟨s, by rw [hinbox, hline]; exact hs.1, by rw [hinbox]; exact hs.2⟩
    have hrest : a₁.bus.inbox a₁.inbox = ms := by
      rw [hinbox, Bus.inbox_eq_line, hline, ← Bus.inbox_eq_line]
      exact hattends.inbox_dropFirst hms
    have hsame : a.receive r = a₁.receive (a.handle r m).2 := by
      rw [receive_eq_mapInbox, receive_eq_mapInbox, hrest, hinbox, hms, handleAll_cons,
        handleAll_mapInbox]
      -- whether a message was taken out before does not matter once all are
      unfold mapInbox
      rw [Bus.mapInbox_mapInbox]
      rfl
    rw [hsame, ih hattends₁ _ hrest]
    show _ = (fun (a, r) => a.serveFirst r)^[ms.length] (a.serveFirst r)
    rw [hserve]

end Authority

/-! ## Tasks -/

namespace Subscription

variable {s : Subscription}

theorem settle_of_forwarding (hregistered : s.registered = true) (hforwarding : s.forwarding = true)
    (hlistening : s.listening = true) :
    s.settle = { s with pending := [], inbox := s.inbox ++ s.pending.map Message.ofRaw } := by
  obtain ⟨filter, handler, registered, forwarding, listening, pending, inbox⟩ := s
  dsimp only at hregistered hforwarding hlistening
  subst hregistered hforwarding hlistening
  cases pending with
  | nil => simp [settle]
  | cons raw raws => rfl

/-- **A task that runs until it waits forwards one message after another**, as long as the table
names its subscription and the handler receives. -/
theorem settle_eq (hregistered : s.registered = true) (hlistening : s.listening = true) :
    s.settle = forward^[s.pending.length] s := by
  by_cases hforwarding : s.forwarding = true
  · generalize hpending : s.pending = raws
    -- one message is forwarded at a time, until none is left
    induction raws generalizing s with
    | nil =>
      rw [settle_of_forwarding hregistered hforwarding hlistening, hpending, List.map_nil,
        List.append_nil]
      exact congrArg (fun raws => { s with pending := raws }) hpending.symm
    | cons raw raws ih =>
      let s₁ : Subscription :=
        { s with pending := raws, inbox := s.inbox ++ [Message.ofRaw raw] }
      have hforward : s.forward = s₁ := by
        unfold forward
        rw [if_pos hforwarding, hpending]
        dsimp only
        rw [if_pos hlistening]
      have hsame : s.settle = s₁.settle := by
        rw [settle_of_forwarding hregistered hforwarding hlistening,
          settle_of_forwarding (s := s₁) hregistered hforwarding hlistening, hpending]
        simp [s₁]
      rw [hsame, ih (s := s₁) hregistered hlistening hforwarding rfl]
      show _ = forward^[raws.length] s.forward
      rw [hforward]
  · -- a task that ended does nothing
    have hidle : s.forward = s := by
      unfold forward
      rw [if_neg hforwarding]
    have hsettled : s.settle = s := by
      unfold settle
      rw [Bool.not_eq_true] at hforwarding
      rw [hregistered, hforwarding]
      rfl
    rw [hsettled, Function.iterate_fixed hidle]

end Subscription

/-! ## The broker -/

/-- **A broker that takes many messages takes one after another.** -/
theorem World.publish_append (w : World) (raws raws' : List RawMessage) :
    w.publish (raws ++ raws') = (w.publish raws).publish raws' := by
  have hroute : ∀ b : Bus, b.routeAll (raws ++ raws') = (b.routeAll raws).routeAll raws' :=
    fun _ => List.foldl_append
  have hrecord : w.broker.record (raws ++ raws') = (w.broker.record raws).record raws' :=
    congrArg (fun history => { w.broker with history }) (List.append_assoc _ _ _).symm
  unfold World.publish mapBuses mapHosts
  simp only [hroute, hrecord, List.map_map, Option.map_map]
  rfl

end Coordination
