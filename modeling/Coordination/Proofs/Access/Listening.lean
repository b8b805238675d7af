import Coordination.Proofs.Access.Write
/-!
# Listening as a host, and the masks of the authority

Reading and subscribing are granted by the same masks; a subscription must also leave the sender
open.  A host hears what is addressed to all hosts, to itself and, where a lookup confirms that it
acts for the agent, to an agent.  The authority hears what is addressed to nobody else, and writes
under the placeholder to whomever it likes.
-/

namespace Coordination.Access

/-- What entitles a host to hear what is addressed to a host and an agent. -/
inductive MayHear (verify : Verifier) (host : String) : String → String → Prop where
  /-- It hears what is meant for all hosts. -/
  | everyone : MayHear verify host all Topic.absent
  /-- It hears what is meant for itself. -/
  | own : MayHear verify host host Topic.absent
  /-- It hears for an agent for which it acts, on itself or on no host in particular. -/
  | agent {segment agent : String} : segment = host ∨ segment = Topic.absent →
      agent ≠ Topic.absent → verify ⟨host, none, some agent⟩ = .ok true →
      MayHear verify host segment agent

/-- What an access asks of the sender if it is not a write. -/
def Hears (access : Access) (sender : String) : Prop := access = .subscribe → sender = Topic.any

section masks
variable {verify : Verifier} {authority host sender segment : String} {t : Quad} {access : Access}

/-- Whoever does not write has no sender of its own. -/
theorem senderAllowed_iff_hears (haccess : access ≠ .write) (t m : Quad) :
    senderAllowed access t m = true ↔ Hears access t.sender := by
  cases access with
  | read => simp [senderAllowed, Hears]
  | write => exact absurd rfl haccess
  | subscribe => simp [senderAllowed, Hears]

/-- A mask without wildcards accepts its own segments. -/
theorem quadMatches_listen_iff (haccess : access ≠ .write) (ha : PlainId authority)
    (hsegment : ∀ x, segmentMatches segment x = true ↔ x = segment) :
    quadMatches access t ⟨sender, authority, segment, Topic.absent⟩ = true ↔
      Hears access t.sender ∧ t.authority = authority ∧ t.host = segment ∧
        t.agent = Topic.absent := by
  simp [quadMatches, senderAllowed_iff_hears haccess, ha.segmentMatches_iff, hsegment, and_assoc]

/-- The lookup of a mask that leaves the agent open and is for any sender. -/
theorem quadLookup?_listen_iff {l : Lookup} (haccess : access ≠ .write) (ha : PlainId authority)
    (hsender : sender ≠ query) (hquery : segment ≠ query)
    (hsegment : ∀ x, segmentMatches segment x = true ↔ x = segment) :
    quadLookup? access host t ⟨sender, authority, segment, query⟩ = some l ↔
      Hears access t.sender ∧ t.authority = authority ∧ t.host = segment ∧
        t.agent ≠ Topic.absent ∧ l = ⟨host, none, some t.agent⟩ := by
  unfold quadLookup?
  simp only [Bool.and_eq_true, ha.queryOrMatches_iff, queryOrMatches_eq hquery, hsegment,
    queryOrMatches_query, and_true, if_neg hsender, if_true]
  -- without an agent in the topic there is nobody to look up, and no lookup is made
  by_cases hplace : t.authority = authority ∧ t.host = segment
  · by_cases hagent : t.agent = Topic.absent
    · simp [hagent]
    · -- the lookup has a target and no source
      cases access with
      | read => simp [lookupSource?, Hears, hplace, hagent, eq_comm (a := l)]
      | write => exact absurd rfl haccess
      | subscribe =>
        by_cases hany : t.sender = Topic.any
        · simp [lookupSource?, Hears, hplace, hagent, hany, eq_comm (a := l)]
        · simp [lookupSource?, Hears, hplace, hany]
  · rw [if_neg hplace]
    simp only [reduceCtorEq, false_iff]
    intro hparts
    exact hplace ⟨hparts.2.1, hparts.2.2.1⟩

/-- So such a mask grants what the lookup about the agent confirms. -/
theorem grantsQuad_listen_iff (haccess : access ≠ .write) (ha : PlainId authority)
    (hsender : sender ≠ query) (hquery : segment ≠ query)
    (hsegment : ∀ x, segmentMatches segment x = true ↔ x = segment) :
    GrantsQuad verify (some host) access t ⟨sender, authority, segment, query⟩ ↔
      Hears access t.sender ∧ t.authority = authority ∧ t.host = segment ∧
        t.agent ≠ Topic.absent ∧ verify ⟨host, none, some t.agent⟩ = .ok true := by
  -- the sender of the mask is no query, so that only the lookup can grant anything
  have hnot : quadMatches access t ⟨sender, authority, segment, query⟩ = false := by
    simp [quadMatches]
  unfold GrantsQuad
  rw [hnot]
  constructor
  · intro hcases
    obtain ⟨h, l, hhost, hl, hconfirmed⟩ := hcases.resolve_left Bool.false_ne_true
    cases hhost
    obtain ⟨hhears, hau, hho, hag, rfl⟩ :=
      (quadLookup?_listen_iff haccess ha hsender hquery hsegment).1 hl
    exact ⟨hhears, hau, hho, hag, confirmed_iff.1 hconfirmed⟩
  · intro hparts
    obtain ⟨hhears, hau, hho, hag, hverify⟩ := hparts
    exact .inr ⟨host, _, rfl, (quadLookup?_listen_iff haccess ha hsender hquery hsegment).2
      ⟨hhears, hau, hho, hag, rfl⟩, confirmed_iff.2 hverify⟩

end masks

/-! ## The masks of a role -/

section roles
variable {verify : Verifier} {authority host topic : String} {t : Quad} {access : Access}
  {p : Principal}

/-- What the masks of a host grant for listening, mask by mask. -/
theorem exists_grants_listen_iff (hp : p.hostId = some host) (ha : PlainId authority)
    (hh : PlainId host) (haccess : access ≠ .write) (ht : Quad.ofText? topic = some t) :
    (∃ m ∈ hostMasks authority host access, Grants verify p topic access m) ↔
      quadMatches access t ⟨Topic.absent, authority, all, Topic.absent⟩ = true ∨
      quadMatches access t ⟨Topic.absent, authority, host, Topic.absent⟩ = true ∨
      GrantsQuad verify (some host) access t ⟨Topic.absent, authority, host, query⟩ ∨
      GrantsQuad verify (some host) access t ⟨anyButAll, authority, Topic.absent, query⟩ := by
  have hmasks : hostMasks authority host access = hostMasks authority host .read := by
    cases access with
    | read => rfl
    | write => exact absurd rfl haccess
    | subscribe => rfl
  have habsent : '/' ∉ Topic.absent.toList := by decide
  have hall : '/' ∉ all.toList := by decide
  have hanyButAll : '/' ∉ anyButAll.toList := by decide
  have hquery : '/' ∉ query.toList := by decide
  have hplain : ∀ segment, '?' ∉ segment.toList →
      '?' ∉ (mask Topic.absent authority segment Topic.absent).toList := by
    intro segment hsegment
    simp [query_mem_mask, ha.query_not_mem, hsegment, Topic.absent]
  rw [hmasks]
  simp only [hostMasks, List.mem_cons, List.not_mem_nil, or_false, exists_eq_or_imp,
    exists_eq_left]
  -- the first two masks hold no query, the last two end in one
  rw [grants_iff_of_not_query ht (ofText?_mask habsent ha.slash_not_mem hall habsent)
      (hplain all (by decide)),
    grants_iff_of_not_query ht (ofText?_mask habsent ha.slash_not_mem hh.slash_not_mem habsent)
      (hplain host hh.query_not_mem),
    grants_iff_of_query ht (ofText?_mask habsent ha.slash_not_mem hh.slash_not_mem hquery)
      (query_mem_mask.2 (.inr (.inr (.inr (by decide))))),
    grants_iff_of_query ht (ofText?_mask hanyButAll ha.slash_not_mem habsent hquery)
      (query_mem_mask.2 (.inr (.inr (.inr (by decide))))), hp]

/-- The masks of a host grant what it may hear. -/
theorem grants_listen_iff (hp : p.hostId = some host) (ha : PlainId authority)
    (hh : PlainId host) (haccess : access ≠ .write) (ht : Quad.ofText? topic = some t) :
    (∃ m ∈ hostMasks authority host access, Grants verify p topic access m) ↔
      Hears access t.sender ∧ t.authority = authority ∧ MayHear verify host t.host t.agent := by
  have hall : ∀ x, segmentMatches all x = true ↔ x = all := fun x =>
    segmentMatches_iff (by decide) (by decide) (by decide)
  have habsent : ∀ x, segmentMatches Topic.absent x = true ↔ x = Topic.absent := fun x =>
    segmentMatches_absent
  have hown : ∀ x, segmentMatches host x = true ↔ x = host := fun x => hh.segmentMatches_iff
  rw [exists_grants_listen_iff hp ha hh haccess ht, quadMatches_listen_iff haccess ha hall,
    quadMatches_listen_iff haccess ha hown,
    grantsQuad_listen_iff haccess ha (by decide) hh.ne_query hown,
    grantsQuad_listen_iff haccess ha (by decide) (by decide) habsent]
  constructor
  · intro hcases
    rcases hcases with ⟨hhears, hau, hho, hag⟩ | ⟨hhears, hau, hho, hag⟩ |
      ⟨hhears, hau, hho, hag, hverify⟩ | ⟨hhears, hau, hho, hag, hverify⟩
    · rw [hho, hag]
      exact ⟨hhears, hau, .everyone⟩
    · rw [hho, hag]
      exact ⟨hhears, hau, .own⟩
    · exact ⟨hhears, hau, .agent (.inl hho) hag hverify⟩
    · exact ⟨hhears, hau, .agent (.inr hho) hag hverify⟩
  · intro hparts
    obtain ⟨hhears, hau, hmay⟩ := hparts
    -- what may be heard is told by the two segments, so that they have to be variables
    generalize hsegment : t.host = segment at hmay
    generalize hagent : t.agent = agent at hmay
    cases hmay with
    | everyone => exact .inl ⟨hhears, hau, rfl, rfl⟩
    | own => exact .inr (.inl ⟨hhears, hau, rfl, rfl⟩)
    | agent hplace hag hverify =>
      rcases hplace with hplace | hplace
      · exact .inr (.inr (.inl ⟨hhears, hau, hplace, hag, hverify⟩))
      · exact .inr (.inr (.inr ⟨hhears, hau, hplace, hag, hverify⟩))

/-- The mask of the authority for listening grants what is addressed to nobody else. -/
theorem grants_authority_listen_iff (ha : PlainId authority) (haccess : access ≠ .write)
    (ht : Quad.ofText? topic = some t) :
    (∃ m ∈ authorityMasks authority access, Grants verify p topic access m) ↔
      Hears access t.sender ∧ t.authority = authority ∧ t.host = Topic.absent ∧
        t.agent = Topic.absent := by
  have hmasks : authorityMasks authority access =
      [mask anyButAll authority Topic.absent Topic.absent] := by
    cases access with
    | read => rfl
    | write => exact absurd rfl haccess
    | subscribe => rfl
  have habsent : '/' ∉ Topic.absent.toList := by decide
  have hplain : '?' ∉ (mask anyButAll authority Topic.absent Topic.absent).toList := by
    simp [query_mem_mask, ha.query_not_mem, Topic.absent, anyButAll]
  rw [hmasks]
  simp only [List.mem_singleton, exists_eq_left]
  rw [grants_iff_of_not_query ht
      (ofText?_mask (by decide) ha.slash_not_mem habsent habsent) hplain,
    quadMatches_listen_iff haccess ha fun x => segmentMatches_absent]

/-- The mask of the authority for writing grants everything under its own placeholder. -/
theorem grants_authority_write_iff (ha : PlainId authority) (ht : Quad.ofText? topic = some t) :
    (∃ m ∈ authorityMasks authority .write, Grants verify p topic .write m) ↔
      t.sender = Topic.absent ∧ t.authority = authority := by
  have hany : '/' ∉ Topic.any.toList := by decide
  have hplain : '?' ∉ (mask Topic.absent authority Topic.any Topic.any).toList := by
    simp [query_mem_mask, ha.query_not_mem, Topic.absent, Topic.any]
  have hopen : ∀ x, segmentMatches Topic.any x = true := fun x => if_pos rfl
  simp only [authorityMasks, List.mem_singleton, exists_eq_left]
  rw [grants_iff_of_not_query ht
      (ofText?_mask (by decide) ha.slash_not_mem hany hany) hplain]
  simp [quadMatches, senderAllowed, ha.segmentMatches_iff, hopen]

end roles

/-! ## The decision -/

section decision
variable {verify : Verifier} {authority host : String} {access : Access} {p : Principal}

/-- What the masks of a client grant for listening, role by role. -/
theorem exists_grants_hear_iff {topic : String} {t : Quad} (ha : PlainId authority)
    (hh : PlainId host) (hauthority : p.authorityId = some authority)
    (hhost : p.hostId = none ∨ p.hostId = some host) (haccess : access ≠ .write)
    (ht : Quad.ofText? topic = some t) :
    (∃ m ∈ masks p access, Grants verify p topic access m) ↔
      Hears access t.sender ∧ t.authority = authority ∧
        (.authority ∈ p.roles ∧ t.host = Topic.absent ∧ t.agent = Topic.absent ∨
          .host ∈ p.roles ∧ p.hostId = some host ∧ MayHear verify host t.host t.agent) := by
  -- the masks are those of the roles that the caller has
  have hroles : (∃ m ∈ masks p access, Grants verify p topic access m) ↔
      (.authority ∈ p.roles ∧
        ∃ m ∈ authorityMasks authority access, Grants verify p topic access m) ∨
      (.host ∈ p.roles ∧ p.hostId = some host ∧
        ∃ m ∈ hostMasks authority host access, Grants verify p topic access m) := by
    simp only [mem_masks_iff, hauthority, Option.some_inj, exists_eq_left']
    rcases hhost with hnone | hsome
    · simp [hnone, and_assoc]
    · simp [hsome, or_and_right, exists_or, and_assoc]
  rw [hroles, grants_authority_listen_iff ha haccess ht]
  constructor
  · rintro (⟨hrole, hhears, hau, hho, hag⟩ | ⟨hrole, hid, hgrants⟩)
    · exact ⟨hhears, hau, .inl ⟨hrole, hho, hag⟩⟩
    · obtain ⟨hhears, hau, hmay⟩ := (grants_listen_iff hid ha hh haccess ht).mp hgrants
      exact ⟨hhears, hau, .inr ⟨hrole, hid, hmay⟩⟩
  · rintro ⟨hhears, hau, ⟨hrole, hho, hag⟩ | ⟨hrole, hid, hmay⟩⟩
    · exact .inl ⟨hrole, hhears, hau, hho, hag⟩
    · exact .inr ⟨hrole, hid, (grants_listen_iff hid ha hh haccess ht).mpr ⟨hhears, hau, hmay⟩⟩

/-- The codes of reading and subscribing, and what they ask of the sender. -/
theorem exists_access_of_code {code : Nat} (hcode : code = 1 ∨ code = 4) :
    ∃ access, ofCode? code = some access ∧ access ≠ .write ∧
      ∀ sender, Hears access sender ↔ (code = 4 → sender = Topic.any) := by
  rcases hcode with rfl | rfl
  · exact ⟨.read, rfl, by decide, fun sender => by simp [Hears]⟩
  · exact ⟨.subscribe, rfl, by decide, fun sender => by simp [Hears]⟩

/-- **Who hears what.**  Whatever roles a client has, it is granted reading or subscribing exactly if
the topic has four segments, names the authority and, for a subscription, leaves the sender open,
and if one of its roles entitles it: the authority hears what is addressed to nobody else, and a
host hears what it may hear. -/
theorem check_listen_iff (ha : PlainId authority) (hh : PlainId host)
    (hauthority : p.authorityId = some authority) (hhost : p.hostId = none ∨ p.hostId = some host)
    (verify : Verifier) (request : AccessRequest) (hcode : request.code = 1 ∨ request.code = 4)
    (hconnect : Text.startsWith Topic.connectLead request.topic = false) :
    (check verify request p).allowed = true ↔
      ∃ sender segment agent,
        Text.split '/' (Topic.body request.topic) = [sender, authority, segment, agent] ∧
        (request.code = 4 → sender = Topic.any) ∧
        (.authority ∈ p.roles ∧ segment = Topic.absent ∧ agent = Topic.absent ∨
          .host ∈ p.roles ∧ p.hostId = some host ∧ MayHear verify host segment agent) := by
  obtain ⟨access, haccess, hlistens, hhears⟩ := exists_access_of_code hcode
  rw [check_allowed_iff haccess hconnect]
  constructor
  · rintro ⟨m, hm, hgrants⟩
    obtain ⟨t, ht⟩ := hgrants.exists_quad
    obtain ⟨hsender, hau, hrole⟩ :=
      (exists_grants_hear_iff ha hh hauthority hhost hlistens ht).mp ⟨m, hm, hgrants⟩
    refine ⟨t.sender, t.host, t.agent, ?_, (hhears _).mp hsender, hrole⟩
    rw [ofText?_eq_some_iff.mp ht, hau]
  · rintro ⟨sender, segment, agent, hsplit, hsender, hrole⟩
    have ht : Quad.ofText? (Topic.body request.topic) =
        some ⟨sender, authority, segment, agent⟩ := ofText?_eq_some_iff.mpr hsplit
    exact (exists_grants_hear_iff ha hh hauthority hhost hlistens ht).mpr
      ⟨(hhears _).mpr hsender, rfl, hrole⟩

/-- A client that is host and authority at once subscribes for an agent on itself when the lookup is
confirmed, and under no definite sender. -/
theorem check_listen_own_agent :
    let p : Principal := ⟨[.host, .authority], some "h1", some "auth"⟩
    let verify : Verifier := fun l => .ok (l = ⟨"h1", none, some "a1"⟩)
    PlainId "auth" ∧ PlainId "h1" ∧
      (check verify { code := 4, topic := "event/+/auth/h1/a1" } p).allowed = true ∧
      ¬ (check verify { code := 4, topic := "event/h2/auth/h1/a1" } p).allowed = true := by
  intro p verify
  have ha : PlainId "auth" := by decide
  have hh : PlainId "h1" := by decide
  refine ⟨ha, hh, ?_, ?_⟩
  · refine (check_listen_iff ha hh rfl (.inr rfl) verify _ (.inr rfl) (by decide)).mpr
      ⟨"+", "h1", "a1", by decide, fun _ => rfl, .inr ⟨by decide, rfl, ?_⟩⟩
    exact .agent (.inl rfl) (by decide) (by simp [verify])
  · intro hallowed
    obtain ⟨sender, segment, agent, hsplit, hsender, -⟩ :=
      (check_listen_iff ha hh rfl (.inr rfl) verify _ (.inr rfl) (by decide)).mp hallowed
    have hsegments : Text.split '/' (Topic.body "event/h2/auth/h1/a1") =
        ["h2", "auth", "h1", "a1"] := by
      decide
    rw [hsegments, hsender rfl] at hsplit
    exact absurd (List.cons.inj hsplit).1 (by decide)

end decision

end Coordination.Access
