import Coordination.Proofs.Json.Written
/-!
# Values read back

What the writer writes, the reader reads.  A value is readable when it is not nested too deeply, the
keys of its objects ascend, and its numbers read back; everything else reads back by itself.
-/

namespace Coordination.Json

open Reader

/-! ## Readable values -/

/-- A number whose digits are read as this number. -/
def Number.ReadsBack (n : Number) : Prop :=
  ∀ rest, EndsItem rest →
    ∃ x, numeral? (numberChars n ++ rest) = some (x, rest) ∧ x.value? = some n

/-- A value of at most a number of levels that reads back. -/
inductive Value.Readable : Nat → Value → Prop where
  | null {depth : Nat} : Readable depth .null
  | bool {depth : Nat} {b : Bool} : Readable depth (.bool b)
  | number {depth : Nat} {n : Number} : n.ReadsBack → Readable depth (.number n)
  | string {depth : Nat} {s : String} : Readable depth (.string s)
  | array {depth : Nat} {items : List Value} : (∀ v ∈ items, Readable depth v) →
      Readable (depth + 1) (.array items)
  | object {depth : Nat} {members : Members} : (∀ m ∈ members, Readable depth m.2) →
      members.Ascending → Readable (depth + 1) (.object members)

/-- Room for more levels does no harm. -/
theorem Value.Readable.mono {depth depth' : Nat} {v : Value} (h : v.Readable depth)
    (hle : depth ≤ depth') : v.Readable depth' := by
  induction h generalizing depth' with
  | null => exact .null
  | bool => exact .bool
  | number hn => exact .number hn
  | string => exact .string
  | @array depth items _ ih =>
    obtain ⟨depth', rfl⟩ : ∃ d, depth' = d + 1 := ⟨depth' - 1, by omega⟩
    exact .array fun v hv => ih v hv (by omega)
  | @object depth members _ hkeys ih =>
    obtain ⟨depth', rfl⟩ : ∃ d, depth' = d + 1 := ⟨depth' - 1, by omega⟩
    exact .object (fun m hm => ih m hm (by omega)) hkeys

/-! ## Whole texts -/

theorem Number.ReadsBack.denoted_eq {n : Number} (h : n.ReadsBack) : n.denoted = some n := by
  obtain ⟨x, hx, hvalue⟩ := h [] (.inl rfl)
  rw [List.append_nil] at hx
  unfold denoted
  rw [hx]
  exact hvalue

theorem Number.ReadsBack.legible {n : Number} (h : n.ReadsBack) : n.Legible := by
  intro rest hrest
  obtain ⟨x, hx, hvalue⟩ := h rest hrest
  exact ⟨x, hx, hvalue.trans h.denoted_eq.symm⟩

theorem Value.Readable.allNumbers {depth : Nat} {v : Value} (h : v.Readable depth) :
    v.AllNumbers Number.ReadsBack := by
  induction h with
  | null => exact .null
  | bool => exact .bool
  | number hn => exact .number hn
  | string => exact .string
  | array _ ih => exact .array ih
  | object _ _ ih => exact .object ih

/-- **The text of a readable value is read** as the document that writes the value. -/
theorem Document.read?_render {depth : Nat} {v : Value} (h : v.Readable depth) :
    Document.read? v.render = some (.ofValue v) := by
  have hnumbers := h.allNumbers
  have hdocument : v.document Number.denoted = v.document some :=
    (hnumbers.imp fun _ hn => hn.denoted_eq).document_eq
  rw [read?_of_legible (hnumbers.imp fun _ hn => hn.legible), hdocument, Value.document_some]

theorem Document.itemValues?_ofItems {depth : Nat} {vs : List Value}
    (h : ∀ v ∈ vs, toValue? depth (ofValue v) = some v) :
    itemValues? depth (ofItems vs) = some vs := by
  induction vs with
  | nil => rw [ofItems, itemValues?]
  | cons v vs ih =>
    have hv := h v List.mem_cons_self
    have hvs := ih fun w hw => h w (List.mem_cons_of_mem _ hw)
    simp only [ofItems, itemValues?, hv, hvs]

theorem Document.memberValues?_ofMembers {depth : Nat} {ms : Members}
    (h : ∀ m ∈ ms, toValue? depth (ofValue m.2) = some m.2) :
    memberValues? depth (ofMembers ms) = some ms := by
  induction ms with
  | nil => rw [ofMembers, memberValues?]
  | cons m ms ih =>
    have hm := h m List.mem_cons_self
    have hms := ih fun w hw => h w (List.mem_cons_of_mem _ hw)
    simp only [ofMembers, memberValues?, hm, hms]

theorem Document.toValue?_ofValue {depth : Nat} {v : Value} (h : v.Readable depth) :
    toValue? depth (ofValue v) = some v := by
  induction h with
  | null => rw [ofValue, toValue?]
  | bool => rw [ofValue, toValue?]
  | number => rw [ofValue, toValue?, Option.map_some]
  | string => rw [ofValue, toValue?, Option.map_some]
  | array _ ih => rw [ofValue, toValue?, itemValues?_ofItems ih, Option.map_some]
  | object _ hkeys ih =>
    rw [ofValue, toValue?, memberValues?_ofMembers ih, Option.map_some,
      Members.ofList_of_ascending hkeys]

/-- **The bytes of readable members are read as the members.** -/
theorem Members.ofBytes?_toBytes {ms : Members}
    (h : (Value.object ms).Readable Document.depthLimit) : ofBytes? ms.toBytes = some ms := by
  have hread : Value.read? (Value.object ms).render = some (.object ms) := by
    rw [Value.read?, Document.read?_render h]
    exact Document.toValue?_ofValue h
  have hbytes : String.fromUTF8? ms.toBytes = some (Value.object ms).render := by
    unfold String.fromUTF8? toBytes
    rw [String.toUTF8_eq_toByteArray, dif_pos (String.isValidUTF8 _)]
    rfl
  rw [ofBytes?, hbytes, Option.bind_some, hread]
  rfl

/-- Members of readable values make a readable object. -/
theorem Value.Readable.ofMembers {depth : Nat} {l : List (String × Value)}
    (h : ∀ m ∈ l, m.2.Readable depth) : (Value.ofMembers l).Readable (depth + 1) :=
  .object (fun m hm => h m (Members.mem_of_mem_ofList hm)) (Members.ascending_ofList l)

end Coordination.Json
