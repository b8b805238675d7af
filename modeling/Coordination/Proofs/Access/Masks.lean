import Coordination.Access
/-!
# What a mask grants

Access to a topic is granted by one of the masks of a client, and a mask grants it in one of two
ways: its segments accept those of the topic as they stand, or it names a lookup that is confirmed.
The order in which masks are tried decides which lookups are made, but not the answer.

A mask is cut into segments like a topic.  So an id that holds a slash, or that is spelled like a
special segment, does not stand for itself; `PlainId` tells which ids do.
-/

namespace Coordination

/-- The topic without the lead of event topics. -/
def Topic.body (topic : String) : String :=
  (Text.afterLead? Topic.eventLead topic).getD topic

namespace Access

/-! ## Plain ids -/

/-- An id that is one segment of a topic and is none of the segments with a meaning of their own. -/
structure PlainId (id : String) : Prop where
  ne_empty : id ≠ ""
  slash_not_mem : '/' ∉ id.toList
  query_not_mem : '?' ∉ id.toList
  ne_any : id ≠ Topic.any
  ne_anyButAll : id ≠ anyButAll
  ne_absent : id ≠ Topic.absent
  ne_all : id ≠ all

instance (id : String) : Decidable (PlainId id) :=
  decidable_of_iff
    (id ≠ "" ∧ '/' ∉ id.toList ∧ '?' ∉ id.toList ∧ id ≠ Topic.any ∧ id ≠ anyButAll ∧
      id ≠ Topic.absent ∧ id ≠ all)
    ⟨fun ⟨h₁, h₂, h₃, h₄, h₅, h₆, h₇⟩ => ⟨h₁, h₂, h₃, h₄, h₅, h₆, h₇⟩,
     fun ⟨h₁, h₂, h₃, h₄, h₅, h₆, h₇⟩ => ⟨h₁, h₂, h₃, h₄, h₅, h₆, h₇⟩⟩

/-- A plain id is not the segment that asks for a lookup. -/
theorem PlainId.ne_query {id : String} (h : PlainId id) : id ≠ query := by
  intro heq
  subst heq
  exact h.query_not_mem (by decide)

/-! ## Segments -/

/-- A segment of a mask without a meaning of its own accepts itself. -/
theorem segmentMatches_iff {m t : String} (hany : m ≠ Topic.any) (hall : m ≠ anyButAll)
    (hquery : m ≠ query) : segmentMatches m t = true ↔ t = m := by
  unfold segmentMatches
  rw [if_neg hany, if_neg hall, if_neg hquery, decide_eq_true_iff]
  exact eq_comm

theorem PlainId.segmentMatches_iff {id t : String} (h : PlainId id) :
    segmentMatches id t = true ↔ t = id :=
  Access.segmentMatches_iff h.ne_any h.ne_anyButAll h.ne_query

@[simp] theorem segmentMatches_absent {t : String} :
    segmentMatches Topic.absent t = true ↔ t = Topic.absent :=
  segmentMatches_iff (by decide) (by decide) (by decide)

/-- A query accepts nothing without a lookup. -/
@[simp] theorem segmentMatches_query (t : String) : segmentMatches query t = false := by
  unfold segmentMatches
  rw [if_neg (by decide), if_neg (by decide), if_pos rfl]

/-- A query leaves the segment to the lookup. -/
@[simp] theorem queryOrMatches_query (t : String) : queryOrMatches query t = true := by
  simp [queryOrMatches]

/-- Where there is no query, the segments themselves decide. -/
theorem queryOrMatches_eq {m : String} (h : m ≠ query) (t : String) :
    queryOrMatches m t = segmentMatches m t := by
  simp [queryOrMatches, h]

/-- The segment of an absent participant leaves nothing to a lookup. -/
@[simp] theorem queryOrMatches_absent {t : String} :
    queryOrMatches Topic.absent t = true ↔ t = Topic.absent := by
  rw [queryOrMatches_eq (by decide), segmentMatches_absent]

/-- A plain id leaves nothing to a lookup. -/
theorem PlainId.queryOrMatches_iff {id t : String} (h : PlainId id) :
    queryOrMatches id t = true ↔ t = id := by
  rw [queryOrMatches_eq h.ne_query, h.segmentMatches_iff]

/-! ## Cutting into segments -/

/-- The segments of a topic are those between its slashes. -/
theorem ofText?_eq_some_iff {topic : String} {t : Quad} :
    Quad.ofText? topic = some t ↔
      Text.split '/' topic = [t.sender, t.authority, t.host, t.agent] := by
  unfold Quad.ofText?
  constructor
  · intro h
    split at h
    · next hsplit =>
      cases h
      exact hsplit
    · cases h
  · intro h
    rw [h]

/-- A mask of four segments is cut into these. -/
theorem ofText?_mask {s a h g : String} (hs : '/' ∉ s.toList) (ha : '/' ∉ a.toList)
    (hh : '/' ∉ h.toList) (hg : '/' ∉ g.toList) :
    Quad.ofText? (mask s a h g) = some ⟨s, a, h, g⟩ := by
  have hmask : mask s a h g = s ++ String.singleton '/' ++
      (a ++ String.singleton '/' ++ (h ++ String.singleton '/' ++ g)) := by
    unfold mask
    simp only [String.append_assoc]
    rfl
  rw [ofText?_eq_some_iff, hmask, Text.split_append hs, Text.split_append ha,
    Text.split_append hh, Text.split_of_not_mem hg]

/-- A mask asks for a lookup when one of its segments holds a question mark. -/
theorem query_mem_mask {s a h g : String} :
    '?' ∈ (mask s a h g).toList ↔
      '?' ∈ s.toList ∨ '?' ∈ a.toList ∨ '?' ∈ h.toList ∨ '?' ∈ g.toList := by
  simp [mask]

/-! ## One mask -/

/-- A mask grants access: it accepts the topic as it stands, or a lookup is confirmed. -/
def Grants (verify : Verifier) (p : Principal) (topic : String) (access : Access)
    (m : String) : Prop :=
  checkMask topic m access = true ∨
    ∃ l, lookup? p topic m access = some l ∧ confirmed verify l = true

/-- The same said of segments. -/
def GrantsQuad (verify : Verifier) (host : Option String) (access : Access) (t m : Quad) : Prop :=
  quadMatches access t m = true ∨
    ∃ h l, host = some h ∧ quadLookup? access h t m = some l ∧ confirmed verify l = true

/-- Only a topic of four segments is ever granted. -/
theorem Grants.exists_quad {verify : Verifier} {p : Principal} {topic m : String} {access : Access}
    (h : Grants verify p topic access m) : ∃ t, Quad.ofText? topic = some t := by
  rcases h with h | ⟨l, h, -⟩
  · unfold checkMask at h
    split at h
    · next t _ ht _ => exact ⟨t, ht⟩
    · cases h
  · unfold lookup? at h
    split at h
    · split at h
      · next t _ _ ht _ => exact ⟨t, ht⟩
      · cases h
    · cases h

/-- A mask without a query grants what its segments accept. -/
theorem grants_iff_of_not_query {verify : Verifier} {p : Principal} {topic m : String}
    {access : Access} {t q : Quad} (ht : Quad.ofText? topic = some t)
    (hm : Quad.ofText? m = some q) (hquery : '?' ∉ m.toList) :
    Grants verify p topic access m ↔ quadMatches access t q = true := by
  have hnone : lookup? p topic m access = none := by
    unfold lookup?
    rw [if_neg (by simpa using hquery)]
  have hcheck : checkMask topic m access = quadMatches access t q := by
    unfold checkMask
    rw [ht, hm]
  unfold Grants
  rw [hnone, hcheck]
  simp

/-- A mask with a query also grants what a lookup confirms. -/
theorem grants_iff_of_query {verify : Verifier} {p : Principal} {topic m : String}
    {access : Access} {t q : Quad} (ht : Quad.ofText? topic = some t)
    (hm : Quad.ofText? m = some q) (hquery : '?' ∈ m.toList) :
    Grants verify p topic access m ↔ GrantsQuad verify p.hostId access t q := by
  have hcheck : checkMask topic m access = quadMatches access t q := by
    unfold checkMask
    rw [ht, hm]
  unfold Grants GrantsQuad lookup?
  rw [hcheck, if_pos (by simpa using hquery), ht, hm]
  cases p.hostId with
  | none => simp
  | some host => simp

/-! ## All masks -/

/-- Masks grant access when one of them does. -/
theorem tryMasks_allowed_iff {verify : Verifier} {p : Principal} {topic : String} {access : Access}
    {ms : List String} :
    (tryMasks verify p topic access ms).allowed = true ↔
      ∃ m ∈ ms, Grants verify p topic access m := by
  induction ms with
  | nil => simp [tryMasks]
  | cons m ms ih =>
    have hcons : (∃ m' ∈ m :: ms, Grants verify p topic access m') ↔
        Grants verify p topic access m ∨ ∃ m' ∈ ms, Grants verify p topic access m' := by simp
    rw [hcons, ← ih]
    unfold Grants
    simp only [tryMasks]
    cases hcheck : checkMask topic m access with
    | true => simp
    | false =>
      cases hlookup : lookup? p topic m access with
      | none => simp
      | some l => cases hconfirmed : confirmed verify l <;> simp [hconfirmed]

/-- The masks of a client are those of its roles.  A client without an authority has none, and a host
that is not known as any has none for this role. -/
theorem mem_masks_iff {p : Principal} {access : Access} {m : String} :
    m ∈ masks p access ↔ ∃ authority, p.authorityId = some authority ∧
      (.authority ∈ p.roles ∧ m ∈ authorityMasks authority access ∨
        .host ∈ p.roles ∧ ∃ host, p.hostId = some host ∧ m ∈ hostMasks authority host access) := by
  unfold masks
  cases p.authorityId with
  | none => simp
  | some authority =>
    cases p.hostId with
    | none => simp
    | some host => simp

/-- Access is granted when a mask of the client grants it for the topic behind the lead. -/
theorem check_allowed_iff {verify : Verifier} {request : AccessRequest} {p : Principal}
    {access : Access} (hcode : ofCode? request.code = some access)
    (hconnect : Text.startsWith Topic.connectLead request.topic = false) :
    (check verify request p).allowed = true ↔
      ∃ m ∈ masks p access, Grants verify p (Topic.body request.topic) access m := by
  unfold check
  rw [if_neg (by simp [hconnect]), hcode]
  -- the branch of the empty topic is the only one that the masks do not decide
  show (if Topic.body request.topic = "" then (⟨false, []⟩ : Decision)
    else tryMasks verify p (Topic.body request.topic) access (masks p access)).allowed = true ↔ _
  by_cases hempty : Topic.body request.topic = ""
  · -- the empty topic is a single segment
    rw [if_pos hempty, hempty]
    constructor
    · intro h
      cases h
    · intro hparts
      obtain ⟨m, -, hm⟩ := hparts
      obtain ⟨t, ht⟩ := hm.exists_quad
      cases ht
  · rw [if_neg hempty]
    exact tryMasks_allowed_iff

/-- So a request is granted for a topic of the handshake, and otherwise if its code is that of an
access that a mask of the client grants. -/
theorem check_allowed_iff_or {verify : Verifier} {request : AccessRequest} {p : Principal} :
    (check verify request p).allowed = true ↔
      Text.startsWith Topic.connectLead request.topic = true ∨
        ∃ access, ofCode? request.code = some access ∧
          ∃ m ∈ masks p access, Grants verify p (Topic.body request.topic) access m := by
  cases hconnect : Text.startsWith Topic.connectLead request.topic with
  | true => simp [check, hconnect]
  | false =>
    cases hcode : ofCode? request.code with
    | none => simp [check, hconnect, hcode]
    | some access => simp [check_allowed_iff hcode hconnect]

end Access

end Coordination
