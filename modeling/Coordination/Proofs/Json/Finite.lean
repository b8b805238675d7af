import Coordination.Proofs.Json.Numerals
/-!
# Numbers read from texts

No numeral denotes an infinite number or a non-number: one beyond the largest number is out of range
and denotes nothing.  So every value that was read has a text again.
-/

namespace Coordination

/-! ## Binary numbers -/

namespace Decimal.Binary64

/-- Below the bits of infinity there are finite numbers alone. -/
theorem isFinite_ofNat {bits : Nat} (h : bits < topExponent * Nat.pow 2 52) :
    (⟨UInt64.ofNat bits⟩ : Binary64).isFinite = true := by
  simp only [topExponent, Nat.pow_eq, Nat.reducePow, Nat.reduceMul] at h
  have hbits : (UInt64.ofNat bits).toNat = bits := UInt64.toNat_ofNat_of_lt' (by
    simp only [UInt64.size]
    omega)
  simp only [isFinite, exponentBits, topExponent, hbits, Nat.pow_eq, Nat.reducePow, ne_eq,
    decide_eq_true_eq]
  omega

theorem isFinite_zero : (⟨0⟩ : Binary64).isFinite = true := by decide

theorem isFinite_of_ofRatio? {numerator denominator : Nat} {x : Binary64}
    (h : ofRatio? numerator denominator = some x) : x.isFinite = true := by
  unfold ofRatio? at h
  split at h
  · obtain rfl := Option.some.inj h
    exact isFinite_zero
  · simp only [Option.ite_none_right_eq_some] at h
    obtain ⟨hbits, h⟩ := h
    rw [← Option.some.inj h]
    exact isFinite_ofNat hbits

/-- A finite number that is scaled stays finite or leaves the range. -/
theorem isFinite_of_scaleByTen? {fuel : Nat} {x y : Binary64} {exponent : Int}
    (h : scaleByTen? fuel x exponent = some y) (hx : x.isFinite = true) : y.isFinite = true := by
  induction fuel generalizing x exponent with
  | zero => cases h
  | succ fuel ih =>
    unfold scaleByTen? at h
    split at h
    · obtain ⟨power, -, h⟩ := Option.bind_eq_some_iff.mp h
      split at h
      · exact isFinite_of_ofRatio? h
      · exact isFinite_of_ofRatio? h
    · split at h
      · rwa [← Option.some.inj h]
      · split at h
        · cases h
        · -- one step down, and on from a quotient
          obtain ⟨power, -, h⟩ := Option.bind_eq_some_iff.mp h
          obtain ⟨x', hx', h⟩ := Option.bind_eq_some_iff.mp h
          exact ih h (isFinite_of_ofRatio? hx')

theorem isFinite_of_ofDecimal? {significand : Nat} {exponent : Int} {x : Binary64}
    (h : ofDecimal? significand exponent = some x) : x.isFinite = true := by
  obtain ⟨x', hx', h⟩ := Option.bind_eq_some_iff.mp h
  exact isFinite_of_scaleByTen? h (isFinite_of_ofRatio? hx')

/-- The sign does not count. -/
theorem isFinite_negate (x : Binary64) : x.negate.isFinite = x.isFinite := by
  have hbits : x.negate.exponentBits = x.exponentBits := by
    unfold negate exponentBits
    -- the sign bit lies above the exponent bits
    simp only [UInt64.toNat_xor, Nat.pow_eq]
    rw [← Nat.shiftRight_eq_div_pow, ← Nat.shiftRight_eq_div_pow, Nat.shiftRight_xor_distrib,
      Nat.xor_mod_two_pow]
    simp
  unfold isFinite
  rw [hbits]

end Decimal.Binary64

namespace Json

open Reader

/-! ## Numerals -/

theorem isFinite_of_value? {x : Numeral} {n : Number} (h : x.value? = some n) : n.IsFinite := by
  have hsigned : ∀ m : Decimal.Binary64, m.isFinite = true → (x.signed m).IsFinite := by
    intro m hm
    unfold Numeral.signed
    split
    · exact m.isFinite_negate.trans hm
    · exact hm
  -- an exponent beyond all counting leaves a zero or nothing
  have hzero := hsigned ⟨0⟩ Decimal.Binary64.isFinite_zero
  unfold Numeral.value? at h
  dsimp only at h
  split at h
  · obtain rfl := Option.some.inj h
    trivial
  split at h
  · obtain rfl := Option.some.inj h
    trivial
  split at h
  · obtain ⟨m, hm, rfl⟩ := Option.map_eq_some_iff.mp h
    exact hsigned m (Decimal.Binary64.isFinite_of_ofDecimal? hm)
  split at h
  · split at h
    · rwa [← Option.some.inj h]
    · cases h
  · rwa [← Option.some.inj h]

/-! ## Documents -/

/-- A document none of whose numbers denotes an infinite number or a non-number. -/
inductive Document.IsFinite : Document → Prop where
  | null : IsFinite .null
  | bool {b : Bool} : IsFinite (.bool b)
  | number {n : Option Number} : (∀ m ∈ n, m.IsFinite) → IsFinite (.number n)
  | string {s : Option String} : IsFinite (.string s)
  | array {items : List Document} : (∀ doc ∈ items, IsFinite doc) → IsFinite (.array items)
  | object {members : List (Option String × Document)} : (∀ m ∈ members, IsFinite m.2) →
      IsFinite (.object members)

/-- What the readers take with a budget is finite. -/
structure TakesFinite (fuel : Nat) : Prop where
  value : ∀ cs found, value? fuel cs = some found → found.1.IsFinite
  items : ∀ cs found, items? fuel cs = some found → ∀ doc ∈ found.1, doc.IsFinite
  members : ∀ cs found, members? fuel cs = some found → ∀ m ∈ found.1, m.2.IsFinite

theorem TakesFinite.value_succ {fuel : Nat} (h : TakesFinite fuel) (cs : List Char)
    (found : Document × List Char) (hread : value? (fuel + 1) cs = some found) :
    found.1.IsFinite := by
  -- one case for each first character that a value may have
  unfold value? at hread
  split at hread
  · obtain ⟨s, -, rfl⟩ := Option.map_eq_some_iff.mp hread
    exact .string
  · split at hread
    · obtain rfl := Option.some.inj hread
      exact .array (by simp)
    · obtain ⟨items, hitems, rfl⟩ := Option.map_eq_some_iff.mp hread
      exact .array (h.items _ _ hitems)
  · split at hread
    · obtain rfl := Option.some.inj hread
      exact .object (by simp)
    · obtain ⟨members, hmembers, rfl⟩ := Option.map_eq_some_iff.mp hread
      exact .object (h.members _ _ hmembers)
  · obtain rfl := Option.some.inj hread
    exact .null
  · obtain rfl := Option.some.inj hread
    exact .bool
  · obtain rfl := Option.some.inj hread
    exact .bool
  · obtain ⟨x, -, rfl⟩ := Option.map_eq_some_iff.mp hread
    exact .number fun n hn => isFinite_of_value? hn

theorem TakesFinite.items_succ {fuel : Nat} (h : TakesFinite fuel) (cs : List Char)
    (found : List Document × List Char) (hread : items? (fuel + 1) cs = some found) :
    ∀ doc ∈ found.1, doc.IsFinite := by
  unfold items? at hread
  split at hread
  · cases hread
  · next item rest hitem =>
    have hfirst : item.IsFinite := h.value _ _ hitem
    split at hread
    · obtain rfl := Option.some.inj hread
      simpa using hfirst
    · obtain ⟨others, hothers, rfl⟩ := Option.map_eq_some_iff.mp hread
      simpa using ⟨hfirst, h.items _ _ hothers⟩
    · cases hread

theorem TakesFinite.members_succ {fuel : Nat} (h : TakesFinite fuel) (cs : List Char)
    (found : List (Option String × Document) × List Char)
    (hread : members? (fuel + 1) cs = some found) : ∀ m ∈ found.1, m.2.IsFinite := by
  -- the key, the colon and the value, and then a comma or the closing brace
  unfold members? at hread
  split at hread
  · split at hread
    · cases hread
    · split at hread
      · split at hread
        · cases hread
        · next item rest hitem =>
          have hfirst : item.IsFinite := h.value _ _ hitem
          split at hread
          · obtain rfl := Option.some.inj hread
            simpa using hfirst
          · obtain ⟨others, hothers, rfl⟩ := Option.map_eq_some_iff.mp hread
            have hrest := h.members _ _ hothers
            intro m hm
            rcases List.mem_cons.mp hm with rfl | hm
            · exact hfirst
            · exact hrest m hm
          · cases hread
      · cases hread
  · cases hread

/-- Each level of nesting takes its parts with less. -/
theorem takesFinite (fuel : Nat) : TakesFinite fuel := by
  induction fuel with
  | zero =>
    constructor
    · intro cs found hread
      rw [value?] at hread
      cases hread
    · intro cs found hread
      rw [items?] at hread
      cases hread
    · intro cs found hread
      rw [members?] at hread
      cases hread
  | succ fuel ih => exact ⟨ih.value_succ, ih.items_succ, ih.members_succ⟩

theorem Document.isFinite_of_read? {s : String} {doc : Document} (h : read? s = some doc) :
    doc.IsFinite := by
  unfold read? at h
  dsimp only at h
  split at h
  · next found rest hread =>
    rw [Option.ite_none_right_eq_some] at h
    rw [← Option.some.inj h.2]
    exact (takesFinite _).value _ _ hread
  · cases h

/-! ## Values -/

mutual

theorem Document.isFinite_of_toValue? {depth : Nat} {v : Value} :
    ∀ {doc : Document}, doc.IsFinite → toValue? depth doc = some v → v.IsFinite
  | .null, _, h => by
    rw [toValue?] at h
    obtain rfl := Option.some.inj h
    exact .null
  | .bool _, _, h => by
    rw [toValue?] at h
    obtain rfl := Option.some.inj h
    exact .bool
  | .number n, hdoc, h => by
    rw [toValue?] at h
    obtain ⟨m, hm, rfl⟩ := Option.map_eq_some_iff.mp h
    cases hdoc with
    | number hn => exact .number (hn m hm)
  | .string s, _, h => by
    rw [toValue?] at h
    obtain ⟨s, -, rfl⟩ := Option.map_eq_some_iff.mp h
    exact .string
  | .array items, hdoc, h => by
    cases hdoc with
    | array hitems =>
      unfold toValue? at h
      split at h
      · cases h
      · obtain ⟨vs, hvs, rfl⟩ := Option.map_eq_some_iff.mp h
        exact .array (isFinite_of_itemValues? hitems hvs)
  | .object members, hdoc, h => by
    cases hdoc with
    | object hmembers =>
      unfold toValue? at h
      split at h
      · cases h
      · obtain ⟨ms, hms, rfl⟩ := Option.map_eq_some_iff.mp h
        have hfinite := isFinite_of_memberValues? hmembers hms
        exact .object fun m hm => hfinite m (Members.mem_of_mem_ofList hm)

theorem Document.isFinite_of_itemValues? {depth : Nat} {vs : List Value} :
    ∀ {items : List Document}, (∀ doc ∈ items, doc.IsFinite) →
      itemValues? depth items = some vs → ∀ v ∈ vs, v.IsFinite
  | [], _, h => by
    rw [itemValues?] at h
    obtain rfl := Option.some.inj h
    simp
  | doc :: docs, hitems, h => by
    rw [itemValues?] at h
    split at h
    · next v vs hv hvs =>
      obtain rfl := Option.some.inj h
      have hfirst := isFinite_of_toValue? (hitems doc List.mem_cons_self) hv
      have hrest := isFinite_of_itemValues?
        (fun doc hdoc => hitems doc (List.mem_cons_of_mem _ hdoc)) hvs
      simpa using ⟨hfirst, hrest⟩
    · cases h

theorem Document.isFinite_of_memberValues? {depth : Nat} {ms : Members} :
    ∀ {members : List (Option String × Document)}, (∀ m ∈ members, m.2.IsFinite) →
      memberValues? depth members = some ms → ∀ m ∈ ms, m.2.IsFinite
  | [], _, h => by
    rw [memberValues?] at h
    obtain rfl := Option.some.inj h
    simp
  | (key, doc) :: members, hmembers, h => by
    unfold memberValues? at h
    split at h
    · next k v ms hk hv hms =>
      obtain rfl := Option.some.inj h
      have hfirst := isFinite_of_toValue? (hmembers _ List.mem_cons_self) hv
      have hrest := isFinite_of_memberValues?
        (fun m hm => hmembers m (List.mem_cons_of_mem _ hm)) hms
      intro m hm
      rcases List.mem_cons.mp hm with rfl | hm
      · exact hfirst
      · exact hrest m hm
    · cases h

end

/-- **Members that were read are finite.** -/
theorem Members.isFinite_of_ofBytes? {bytes : ByteArray} {ms : Members}
    (h : ofBytes? bytes = some ms) : ∀ m ∈ ms, m.2.IsFinite := by
  obtain ⟨s, -, h⟩ := Option.bind_eq_some_iff.mp h
  obtain ⟨v, hv, h⟩ := Option.bind_eq_some_iff.mp h
  obtain ⟨doc, hdoc, hv⟩ := Option.bind_eq_some_iff.mp hv
  have hfinite := Document.isFinite_of_toValue? (Document.isFinite_of_read? hdoc) hv
  cases hfinite with
  | object hmembers =>
    obtain rfl := Option.some.inj h
    exact hmembers
  | _ => cases h

end Json

end Coordination
