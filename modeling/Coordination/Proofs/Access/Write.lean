import Coordination.Proofs.Access.Masks
/-!
# Writing as a host

A host writes under its own id, and under another id only where a lookup confirms that it may act
for it.  Of the three masks that a host has for writing, one names the host itself and two leave the
sender to a lookup.

The rule has one gap.  A mask is compared with the topic as it stands before its lookup is made, and
what a write asks of the sender is that it equals that of the mask.  So the sender that is spelled
like the query itself passes without any lookup.
-/

namespace Coordination.Access

/-- What entitles a host to write under a sender to an agent, or to the authority where the agent
is absent. -/
inductive MayWrite (verify : Verifier) (host : String) : String → String → Prop where
  /-- A host writes to the authority in its own name. -/
  | own : MayWrite verify host host Topic.absent
  /-- It writes to the authority in the name of another. -/
  | behalf {sender : String} : sender ≠ Topic.absent →
      verify ⟨host, some sender, none⟩ = .ok true → MayWrite verify host sender Topic.absent
  /-- It writes to an agent in the name of another one. -/
  | between {sender agent : String} : sender ≠ agent → sender ≠ Topic.absent →
      agent ≠ Topic.absent → verify ⟨host, some sender, some agent⟩ = .ok true →
      MayWrite verify host sender agent

/-! ## The three masks -/

section masks
variable {verify : Verifier} {authority host : String} {t : Quad}

theorem confirmed_iff {l : Lookup} : confirmed verify l = true ↔ verify l = .ok true := by
  unfold confirmed
  cases verify l with
  | ok answer => simp
  | error e => simp

/-- A write passes a mask as it stands under the sender of the mask only. -/
theorem quadMatches_write_iff {sender agent : String} (ha : PlainId authority) :
    quadMatches .write t ⟨sender, authority, Topic.absent, agent⟩ = true ↔
      t.sender = sender ∧ t.authority = authority ∧ t.host = Topic.absent ∧
        segmentMatches agent t.agent = true := by
  simp [quadMatches, senderAllowed, ha.segmentMatches_iff, and_assoc]

/-- The lookup of a mask that leaves the sender open and names no agent. -/
theorem quadLookup?_behalf_iff {l : Lookup} (ha : PlainId authority) :
    quadLookup? .write host t ⟨query, authority, Topic.absent, Topic.absent⟩ = some l ↔
      t.authority = authority ∧ t.host = Topic.absent ∧ t.agent = Topic.absent ∧
        t.sender ≠ Topic.absent ∧ l = ⟨host, some t.sender, none⟩ := by
  have hquery : Topic.absent ≠ query := by decide
  unfold quadLookup? lookupSource?
  simp only [Bool.and_eq_true, ha.queryOrMatches_iff, queryOrMatches_absent, if_true, if_neg hquery]
  by_cases hsender : t.sender = Topic.absent
  · simp [hsender]
  · simp [hsender, and_assoc, eq_comm (a := l)]

/-- The lookup of a mask that leaves the sender and the agent open. -/
theorem quadLookup?_between_iff {l : Lookup} (ha : PlainId authority) :
    quadLookup? .write host t ⟨query, authority, Topic.absent, query⟩ = some l ↔
      t.authority = authority ∧ t.host = Topic.absent ∧ t.sender ≠ t.agent ∧
        t.sender ≠ Topic.absent ∧ t.agent ≠ Topic.absent ∧
        l = ⟨host, some t.sender, some t.agent⟩ := by
  unfold quadLookup? lookupSource?
  simp only [Bool.and_eq_true, ha.queryOrMatches_iff, queryOrMatches_absent, queryOrMatches_query,
    if_true, and_true]
  by_cases hsender : t.sender = Topic.absent
  · simp [hsender]
  · by_cases hagent : t.agent = Topic.absent
    · simp [hagent]
    · by_cases hsame : t.sender = t.agent
      · simp [hsame]
      · simp [hsender, hagent, hsame, and_assoc, eq_comm (a := l)]

/-- The mask that names no agent also accepts the sender that is spelled like its query, and makes
no lookup for it. -/
theorem grantsQuad_behalf_iff (ha : PlainId authority) :
    GrantsQuad verify (some host) .write t ⟨query, authority, Topic.absent, Topic.absent⟩ ↔
      t.authority = authority ∧ t.host = Topic.absent ∧ t.agent = Topic.absent ∧
        (t.sender = query ∨
          t.sender ≠ Topic.absent ∧ verify ⟨host, some t.sender, none⟩ = .ok true) := by
  unfold GrantsQuad
  rw [quadMatches_write_iff ha, segmentMatches_absent]
  constructor
  · intro hcases
    rcases hcases with ⟨hs, hau, hho, hag⟩ | ⟨h, l, hhost, hl, hconfirmed⟩
    · exact ⟨hau, hho, hag, .inl hs⟩
    · cases hhost
      obtain ⟨hau, hho, hag, hs, rfl⟩ := (quadLookup?_behalf_iff ha).1 hl
      exact ⟨hau, hho, hag, .inr ⟨hs, confirmed_iff.1 hconfirmed⟩⟩
  · intro hparts
    obtain ⟨hau, hho, hag, hs | ⟨hs, hverify⟩⟩ := hparts
    · exact .inl ⟨hs, hau, hho, hag⟩
    · exact .inr ⟨host, _, rfl, (quadLookup?_behalf_iff ha).2 ⟨hau, hho, hag, hs, rfl⟩,
        confirmed_iff.2 hverify⟩

/-- The mask that leaves the agent open as well accepts nothing without a lookup. -/
theorem grantsQuad_between_iff (ha : PlainId authority) :
    GrantsQuad verify (some host) .write t ⟨query, authority, Topic.absent, query⟩ ↔
      t.authority = authority ∧ t.host = Topic.absent ∧ t.sender ≠ t.agent ∧
        t.sender ≠ Topic.absent ∧ t.agent ≠ Topic.absent ∧
        verify ⟨host, some t.sender, some t.agent⟩ = .ok true := by
  unfold GrantsQuad
  rw [quadMatches_write_iff ha, segmentMatches_query]
  constructor
  · intro hcases
    rcases hcases with ⟨-, -, -, hfalse⟩ | ⟨h, l, hhost, hl, hconfirmed⟩
    · cases hfalse
    · cases hhost
      obtain ⟨hau, hho, hne, hs, hag, rfl⟩ := (quadLookup?_between_iff ha).1 hl
      exact ⟨hau, hho, hne, hs, hag, confirmed_iff.1 hconfirmed⟩
  · intro hparts
    obtain ⟨hau, hho, hne, hs, hag, hverify⟩ := hparts
    exact .inr ⟨host, _, rfl, (quadLookup?_between_iff ha).2 ⟨hau, hho, hne, hs, hag, rfl⟩,
      confirmed_iff.2 hverify⟩

end masks

/-! ## The decision -/

section decision
variable {verify : Verifier} {authority host : String} {roles : List Role}

/-- A client that is a host and nothing else is granted what the masks of a host grant. -/
theorem masks_of_host {p : Principal} {access : Access} (hroles : ∀ r, r ∈ p.roles ↔ r = .host)
    (hhostId : p.hostId = some host) (hauthorityId : p.authorityId = some authority) :
    masks p access = hostMasks authority host access := by
  have hhost : Role.host ∈ p.roles := (hroles _).2 rfl
  have hauthority : Role.authority ∉ p.roles := by
    rw [hroles]
    decide
  simp [masks, hhostId, hauthorityId, hhost, hauthority]

/-- What the masks of a host grant for writing, mask by mask. -/
theorem exists_grants_write_iff {topic : String} {t : Quad} {p : Principal}
    (hp : p.hostId = some host) (ha : PlainId authority) (hh : PlainId host)
    (ht : Quad.ofText? topic = some t) :
    (∃ m ∈ hostMasks authority host .write, Grants verify p topic .write m) ↔
      quadMatches .write t ⟨host, authority, Topic.absent, Topic.absent⟩ = true ∨
      GrantsQuad verify (some host) .write t ⟨query, authority, Topic.absent, Topic.absent⟩ ∨
      GrantsQuad verify (some host) .write t ⟨query, authority, Topic.absent, query⟩ := by
  have hquery : '/' ∉ query.toList := by decide
  have habsent : '/' ∉ Topic.absent.toList := by decide
  have hplain : '?' ∉ (mask host authority Topic.absent Topic.absent).toList := by
    simp [query_mem_mask, hh.query_not_mem, ha.query_not_mem, Topic.absent]
  simp only [hostMasks, List.mem_cons, List.not_mem_nil, or_false, exists_eq_or_imp,
    exists_eq_left]
  rw [grants_iff_of_not_query ht
      (ofText?_mask hh.slash_not_mem ha.slash_not_mem habsent habsent) hplain,
    grants_iff_of_query ht (ofText?_mask hquery ha.slash_not_mem habsent habsent)
      (query_mem_mask.2 (.inl (by decide))),
    grants_iff_of_query ht (ofText?_mask hquery ha.slash_not_mem habsent hquery)
      (query_mem_mask.2 (.inl (by decide))), hp]

/-- The masks of a host grant what it may write, and the sender that is spelled like a query. -/
theorem grants_write_iff {topic : String} {t : Quad} {p : Principal}
    (hp : p.hostId = some host) (ha : PlainId authority) (hh : PlainId host)
    (ht : Quad.ofText? topic = some t) :
    (∃ m ∈ hostMasks authority host .write, Grants verify p topic .write m) ↔
      t.authority = authority ∧ t.host = Topic.absent ∧
        (MayWrite verify host t.sender t.agent ∨ t.sender = query ∧ t.agent = Topic.absent) := by
  rw [exists_grants_write_iff hp ha hh ht, quadMatches_write_iff ha, segmentMatches_absent,
    grantsQuad_behalf_iff ha, grantsQuad_between_iff ha]
  constructor
  · intro hcases
    -- the masks stand for one's own id, for an agent, and for a message between agents
    rcases hcases with ⟨hs, hau, hho, hag⟩ | ⟨hau, hho, hag, hs | ⟨hs, hverify⟩⟩ |
      ⟨hau, hho, hne, hs, hag, hverify⟩
    · rw [hs, hag]
      exact ⟨hau, hho, .inl .own⟩
    · exact ⟨hau, hho, .inr ⟨hs, hag⟩⟩
    · rw [hag]
      exact ⟨hau, hho, .inl (.behalf hs hverify)⟩
    · exact ⟨hau, hho, .inl (.between hne hs hag hverify)⟩
  · intro hparts
    obtain ⟨hau, hho, hmay | ⟨hs, hag⟩⟩ := hparts
    · generalize hsender : t.sender = s at hmay
      generalize hagent : t.agent = g at hmay
      cases hmay with
      | own => exact .inl ⟨rfl, hau, hho, rfl⟩
      | behalf hs hverify => exact .inr (.inl ⟨hau, hho, rfl, .inr ⟨hs, hverify⟩⟩)
      | between hne hs hag hverify => exact .inr (.inr ⟨hau, hho, hne, hs, hag, hverify⟩)
    · exact .inr (.inl ⟨hau, hho, hag, .inl hs⟩)

/-- **Who writes under which sender.**  A client that is a host and nothing else is granted a write
exactly if the topic has four segments, names the authority and no host, and the host may write
under the sender; or if the sender is spelled like the query of a mask and no agent is named. -/
theorem check_write_iff (ha : PlainId authority) (hh : PlainId host)
    (hroles : ∀ r, r ∈ roles ↔ r = .host) (verify : Verifier) (request : AccessRequest)
    (hcode : request.code = 2)
    (hconnect : Text.startsWith Topic.connectLead request.topic = false) :
    (check verify request ⟨roles, some host, some authority⟩).allowed = true ↔
      ∃ sender agent,
        Text.split '/' (Topic.body request.topic) = [sender, authority, Topic.absent, agent] ∧
        (MayWrite verify host sender agent ∨ sender = query ∧ agent = Topic.absent) := by
  have hwrite : ofCode? request.code = some .write := by rw [hcode]; rfl
  rw [check_allowed_iff hwrite hconnect, masks_of_host hroles rfl rfl]
  constructor
  · intro hparts
    obtain ⟨m, hm, hgrants⟩ := hparts
    obtain ⟨t, ht⟩ := hgrants.exists_quad
    obtain ⟨hau, hho, hmay⟩ := (grants_write_iff rfl ha hh ht).1 ⟨m, hm, hgrants⟩
    refine ⟨t.sender, t.agent, ?_, hmay⟩
    rw [ofText?_eq_some_iff.1 ht, hau, hho]
  · intro hparts
    obtain ⟨sender, agent, hsplit, hmay⟩ := hparts
    have ht : Quad.ofText? (Topic.body request.topic) =
        some ⟨sender, authority, Topic.absent, agent⟩ := ofText?_eq_some_iff.2 hsplit
    exact (grants_write_iff rfl ha hh ht).2 ⟨rfl, rfl, hmay⟩

/-- A host writes in the name of one agent to another when the lookup about both is confirmed. -/
theorem check_write_between_agents :
    PlainId "auth" ∧ PlainId "h1" ∧ (∀ r, r ∈ [Role.host] ↔ r = .host) ∧
      Text.startsWith Topic.connectLead "event/a1/auth/-/a2" = false ∧
      (check (fun l => .ok (l = ⟨"h1", some "a1", some "a2"⟩))
        { code := 2, topic := "event/a1/auth/-/a2" }
        ⟨[.host], some "h1", some "auth"⟩).allowed = true := by
  have hroles : ∀ r, r ∈ [Role.host] ↔ r = .host := fun r => List.mem_singleton
  refine ⟨by decide, by decide, hroles, by decide, ?_⟩
  refine (check_write_iff (by decide) (by decide) hroles _ _ rfl (by decide)).2
    ⟨"a1", "a2", by decide, .inl (.between (by decide) (by decide) (by decide) ?_)⟩
  simp

/-- The sender that is spelled like a query needs no lookup: the write is granted although every
lookup would be refused, and none is made. -/
theorem check_write_query_sender :
    PlainId "auth" ∧ PlainId "h1" ∧
      check (fun _ => .ok false) { code := 2, topic := "event/?/auth/-/-" }
        ⟨[.host], some "h1", some "auth"⟩ = ⟨true, []⟩ ∧
      ¬ ∃ sender agent,
        Text.split '/' (Topic.body "event/?/auth/-/-") = [sender, "auth", Topic.absent, agent] ∧
        MayWrite (fun _ => .ok false) "h1" sender agent := by
  refine ⟨by decide, by decide, by decide, ?_⟩
  intro hparts
  obtain ⟨sender, agent, hsplit, hmay⟩ := hparts
  have hsegments : Text.split '/' (Topic.body "event/?/auth/-/-") = ["?", "auth", "-", "-"] := by
    decide
  rw [hsegments] at hsplit
  have hsender : "?" = sender := (List.cons.inj hsplit).1
  cases hmay with
  | own => exact absurd hsender (by decide)
  | behalf _ hverify => cases hverify
  | between _ _ _ hverify => cases hverify

end decision

end Coordination.Access
