import Coordination.Proofs.Access.Write
/-!
# More rights never grant less

A client that gains a role keeps what it may do, and so does everyone when more relationships are
confirmed: masks are only added, and a mask that grants access still does, whatever is tried before
it.  A lookup that fails counts as refused, down to the lookups that are made after it.  All this
holds whatever the ids look like.
-/

namespace Coordination.Access

/-! ## More roles, more confirmed lookups -/

section mono
variable {verify verify' : Verifier} {p p' : Principal} {request : AccessRequest}
  {topic m : String} {access : Access}

/-- A client that has all roles of another under the same ids has all its masks. -/
theorem mem_masks_of_roles (hroles : ∀ r ∈ p.roles, r ∈ p'.roles) (hhost : p'.hostId = p.hostId)
    (hauthority : p'.authorityId = p.authorityId) (h : m ∈ masks p access) :
    m ∈ masks p' access := by
  rw [mem_masks_iff] at h ⊢
  obtain ⟨authority, hid, hrole⟩ := h
  refine ⟨authority, hauthority.trans hid, ?_⟩
  rw [hhost]
  rcases hrole with ⟨hrole, hm⟩ | ⟨hrole, hm⟩
  · exact .inl ⟨hroles _ hrole, hm⟩
  · exact .inr ⟨hroles _ hrole, hm⟩

/-- The lookup of a mask depends on the client only by the host as which it is known. -/
theorem lookup?_congr (hhost : p'.hostId = p.hostId) :
    lookup? p' topic m access = lookup? p topic m access := by
  unfold lookup?
  rw [hhost]

/-- A mask that grants access grants it still when more lookups are confirmed. -/
theorem Grants.mono (hverify : ∀ l, verify l = .ok true → verify' l = .ok true)
    (hhost : p'.hostId = p.hostId) (h : Grants verify p topic access m) :
    Grants verify' p' topic access m := by
  rcases h with hcheck | ⟨l, hl, hconfirmed⟩
  · exact .inl hcheck
  · rw [confirmed_iff] at hconfirmed
    exact .inr ⟨l, (lookup?_congr hhost).trans hl, confirmed_iff.mpr (hverify l hconfirmed)⟩

/-- What is granted under some roles and some confirmed lookups is granted under more of both. -/
theorem check_allowed_mono (hroles : ∀ r ∈ p.roles, r ∈ p'.roles) (hhost : p'.hostId = p.hostId)
    (hauthority : p'.authorityId = p.authorityId)
    (hverify : ∀ l, verify l = .ok true → verify' l = .ok true)
    (h : (check verify request p).allowed = true) :
    (check verify' request p').allowed = true := by
  rw [check_allowed_iff_or] at h ⊢
  rcases h with hconnect | ⟨access, hcode, m, hm, hgrants⟩
  · exact .inl hconnect
  · exact .inr ⟨access, hcode, m, mem_masks_of_roles hroles hhost hauthority hm,
      hgrants.mono hverify hhost⟩

end mono

/-! ## Lookups that fail -/

def failing (verify : Verifier) (fault? : Lookup → Option Fault) : Verifier := fun l =>
  match fault? l with
  | some fault => .error fault
  | none => verify l

/-- The verifier with the same answers replaced by refusals. -/
def refusing (verify : Verifier) (fault? : Lookup → Option Fault) : Verifier := fun l =>
  match fault? l with
  | some _ => .ok false
  | none => verify l

section closed
variable {verify verify' : Verifier}

theorem confirmed_failing (verify : Verifier) (fault? : Lookup → Option Fault) (l : Lookup) :
    confirmed (failing verify fault?) l = confirmed (refusing verify fault?) l := by
  unfold confirmed failing refusing
  cases fault? l with
  | some fault => rfl
  | none => rfl

/-- Only what is confirmed counts, for the answer and for the lookups that are made. -/
theorem tryMasks_congr (h : ∀ l, confirmed verify l = confirmed verify' l) (p : Principal)
    (topic : String) (access : Access) (ms : List String) :
    tryMasks verify p topic access ms = tryMasks verify' p topic access ms := by
  induction ms with
  | nil => rfl
  | cons m ms ih =>
    simp only [tryMasks]
    rw [ih]
    cases lookup? p topic m access with
    | none => rfl
    | some l => simp only [h l]

theorem check_congr (h : ∀ l, confirmed verify l = confirmed verify' l) (request : AccessRequest)
    (p : Principal) : check verify request p = check verify' request p := by
  unfold check
  simp only [tryMasks_congr h]

end closed

/-- **Access is monotone and fails closed.**  For whatever request and whatever ids: what is granted
under some roles by a verifier is granted under more roles by a verifier that confirms more, and
where lookups fail the decision is the same, with the same lookups, as where they are refused. -/
theorem check_monotone_and_fails_closed (request : AccessRequest)
    (hostId authorityId : Option String) :
    (∀ (roles roles' : List Role) (verify verify' : Verifier), (∀ r ∈ roles, r ∈ roles') →
      (∀ l, verify l = .ok true → verify' l = .ok true) →
      (check verify request ⟨roles, hostId, authorityId⟩).allowed = true →
      (check verify' request ⟨roles', hostId, authorityId⟩).allowed = true) ∧
    ∀ (roles : List Role) (verify : Verifier) (fault? : Lookup → Option Fault),
      check (failing verify fault?) request ⟨roles, hostId, authorityId⟩ =
        check (refusing verify fault?) request ⟨roles, hostId, authorityId⟩ := by
  constructor
  · intro roles roles' verify verify' hroles hverify hallowed
    exact check_allowed_mono (p := ⟨roles, hostId, authorityId⟩) hroles rfl rfl hverify hallowed
  · intro roles verify fault?
    exact check_congr (confirmed_failing verify fault?) request _

/-- A host of the id `+` reads for an agent on another host because the lookup is confirmed, and may
still do so when it is an authority as well; when the lookup fails it may not. -/
theorem check_monotone_and_fails_closed_wildcard :
    let request : AccessRequest := { code := 1, topic := "event/s/auth/h2/a1" }
    let verify : Verifier := fun l => .ok (l = ⟨"+", none, some "a1"⟩)
    let verify' : Verifier := fun l => .ok (l.target = some "a1")
    let fault? : Lookup → Option Fault := fun l => if l.host = "+" then some ⟨"down", []⟩ else none
    (∀ r ∈ [Role.host], r ∈ [Role.host, .authority, .host]) ∧
      (∀ l, verify l = .ok true → verify' l = .ok true) ∧
      (check verify request ⟨[.host], some "+", some "auth"⟩).allowed = true ∧
      (check verify' request ⟨[.host, .authority, .host], some "+", some "auth"⟩).allowed = true ∧
      (check (failing verify fault?) request ⟨[.host], some "+", some "auth"⟩).allowed = false := by
  intro request verify verify' fault?
  have hroles : ∀ r ∈ [Role.host], r ∈ [Role.host, .authority, .host] := by decide
  have hverify : ∀ l, verify l = .ok true → verify' l = .ok true := by
    intro l hl
    have heq : l = ⟨"+", none, some "a1"⟩ := by simpa [verify] using hl
    rw [heq]
    rfl
  have hallowed : (check verify request ⟨[.host], some "+", some "auth"⟩).allowed = true := by
    decide +kernel
  obtain ⟨hmono, hclosed⟩ := check_monotone_and_fails_closed request (some "+") (some "auth")
  refine ⟨hroles, hverify, hallowed, hmono _ _ _ _ hroles hverify hallowed, ?_⟩
  rw [hclosed]
  decide +kernel

end Coordination.Access
