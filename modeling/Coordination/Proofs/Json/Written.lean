import Coordination.Proofs.Json.Members
import Coordination.Proofs.Json.Quoted
/-!
# What is read from a written value

The text of a value is read as the document of the value, but for its numbers: each of them is read
as what its digits denote, which need not be the number that was written.  So every value whose
numbers are written as numerals is read, however deep it is nested.
-/

namespace Coordination.Json

open Reader

/-! ## Values up to numbers -/

/-- Every number in a value has a property. -/
inductive Value.AllNumbers (p : Number → Prop) : Value → Prop where
  | null : AllNumbers p .null
  | bool {b : Bool} : AllNumbers p (.bool b)
  | number {n : Number} : p n → AllNumbers p (.number n)
  | string {s : String} : AllNumbers p (.string s)
  | array {items : List Value} : (∀ v ∈ items, AllNumbers p v) → AllNumbers p (.array items)
  | object {members : Members} : (∀ m ∈ members, AllNumbers p m.2) →
      AllNumbers p (.object members)

/-- What every number has follows from what every number has. -/
theorem Value.AllNumbers.imp {p q : Number → Prop} (hpq : ∀ n, p n → q n) {v : Value}
    (h : v.AllNumbers p) : v.AllNumbers q := by
  induction h with
  | null => exact .null
  | bool => exact .bool
  | number hn => exact .number (hpq _ hn)
  | string => exact .string
  | array _ ih => exact .array ih
  | object _ ih => exact .object ih

mutual

/-- The document of a value, where each number denotes what it is told to. -/
def Value.document (denoted : Number → Option Number) : Value → Document
  | .null => .null
  | .bool b => .bool b
  | .number n => .number (denoted n)
  | .string s => .string (some s)
  | .array items => .array (itemDocuments denoted items)
  | .object members => .object (memberDocuments denoted members)

def itemDocuments (denoted : Number → Option Number) : List Value → List Document
  | [] => []
  | v :: vs => v.document denoted :: itemDocuments denoted vs

/-- The members of an object with the documents of their values. -/
def memberDocuments (denoted : Number → Option Number) :
    List (String × Value) → List (Option String × Document)
  | [] => []
  | (k, v) :: ms => (some k, v.document denoted) :: memberDocuments denoted ms

end

theorem itemDocuments_eq_map (denoted : Number → Option Number) (vs : List Value) :
    itemDocuments denoted vs = vs.map (Value.document denoted) := by
  induction vs with
  | nil => rw [itemDocuments, List.map_nil]
  | cons v vs ih => rw [itemDocuments, List.map_cons, ih]

theorem memberDocuments_eq_map (denoted : Number → Option Number) (ms : Members) :
    memberDocuments denoted ms = ms.map fun m => (some m.1, m.2.document denoted) := by
  induction ms with
  | nil => rw [memberDocuments, List.map_nil]
  | cons m ms ih => rw [memberDocuments, List.map_cons, ih]

/-- Values whose numbers denote the same have the same document. -/
theorem Value.AllNumbers.document_eq {denoted denoted' : Number → Option Number} {v : Value}
    (h : v.AllNumbers fun n => denoted n = denoted' n) :
    v.document denoted = v.document denoted' := by
  induction h with
  | null => rw [document, document]
  | bool => rw [document, document]
  | number hn => rw [document, document, hn]
  | string => rw [document, document]
  | array _ ih =>
    rw [document, document, itemDocuments_eq_map, itemDocuments_eq_map, List.map_congr_left ih]
  | object _ ih =>
    rw [document, document, memberDocuments_eq_map, memberDocuments_eq_map]
    congr 1
    refine List.map_congr_left fun m hm => ?_
    rw [ih m hm]

mutual

/-- Where each number denotes itself, the document is the one that writes the value. -/
theorem Value.document_some : ∀ v : Value, v.document some = .ofValue v
  | .null => by rw [Value.document, Document.ofValue]
  | .bool _ => by rw [Value.document, Document.ofValue]
  | .number _ => by rw [Value.document, Document.ofValue]
  | .string _ => by rw [Value.document, Document.ofValue]
  | .array items => by rw [Value.document, Document.ofValue, itemDocuments_some items]
  | .object members => by rw [Value.document, Document.ofValue, memberDocuments_some members]

theorem itemDocuments_some : ∀ vs : List Value, itemDocuments some vs = Document.ofItems vs
  | [] => by rw [itemDocuments, Document.ofItems]
  | v :: vs => by
    rw [itemDocuments, Document.ofItems, Value.document_some v, itemDocuments_some vs]

theorem memberDocuments_some :
    ∀ ms : Members, memberDocuments some ms = Document.ofMembers ms
  | [] => by rw [memberDocuments, Document.ofMembers]
  | (k, v) :: ms => by
    rw [memberDocuments, Document.ofMembers, Value.document_some v, memberDocuments_some ms]

end

/-! ## Legible values -/

/-- What may follow a number in a written value: nothing, or the end of an item. -/
def EndsItem (rest : List Char) : Prop :=
  rest = [] ∨ ∃ c cs, rest = c :: cs ∧ (c = ',' ∨ c = ']' ∨ c = '\x7d')

/-- What the digits of a number denote. -/
def Number.denoted (n : Number) : Option Number :=
  (numeral? (numberChars n)).bind fun found => found.1.value?

/-- A number that is written as a numeral. -/
def Number.Legible (n : Number) : Prop :=
  ∀ rest, EndsItem rest →
    ∃ x, numeral? (numberChars n ++ rest) = some (x, rest) ∧ x.value? = n.denoted

/-- A value all of whose numbers are written as numerals. -/
def Value.Legible (v : Value) : Prop := v.AllNumbers Number.Legible

/-! ## First characters -/

/-- A numeral begins with its sign or a digit. -/
theorem numeral?_head {cs rest : List Char} {x : Numeral} (h : numeral? cs = some (x, rest)) :
    ∃ c cs', cs = c :: cs' ∧ (c = '-' ∨ ∃ d, digit? c = some d) := by
  cases cs with
  | nil => cases h
  | cons c cs' =>
    refine ⟨c, cs', rfl, ?_⟩
    by_cases hminus : c = '-'
    · exact .inl hminus
    · right
      cases hd : digit? c with
      | some d => exact ⟨d, rfl⟩
      | none =>
        -- without a sign the reader looks for digits, and there is none
        exfalso
        unfold numeral? at h
        split at h
        next negative cs'' heq =>
        split at heq
        · next hcons => exact hminus (List.cons.inj hcons).1
        · cases heq
          simp [someDigits?, digits, hd] at h

/-- A numeral at the front is read as a number. -/
theorem value?_of_numeral? {fuel : Nat} {cs rest : List Char} {x : Numeral}
    (h : numeral? cs = some (x, rest)) :
    value? (fuel + 1) cs = some (.number x.value?, rest) := by
  obtain ⟨c, cs', rfl, hc⟩ := numeral?_head h
  have hne : ∀ c' cs'', c' ≠ '-' → digit? c' = none → c :: cs' ≠ c' :: cs'' := by
    intro c' cs'' hminus hdigit heq
    obtain ⟨rfl, -⟩ := List.cons.inj heq
    rcases hc with hc | ⟨d, hd⟩
    · exact hminus hc
    · rw [hd] at hdigit
      cases hdigit
  rw [value?]
  · rw [h]
    rfl
  all_goals
    intro _ heq
    exact hne _ _ (by decide) (by decide) heq

/-- A written value begins with a character that is neither blank nor a closing bracket. -/
theorem Value.Legible.head {v : Value} (h : v.Legible) :
    ∃ c cs, valueChars v = c :: cs ∧ isSpace c = false ∧ c ≠ ']' := by
  cases h with
  | null => exact ⟨_, _, rfl, by decide, by decide⟩
  | @bool b => cases b <;> exact ⟨_, _, rfl, by decide, by decide⟩
  -- a numeral begins with its sign or a digit
  | @number n hn =>
    obtain ⟨x, hx, -⟩ := hn [] (.inl rfl)
    rw [List.append_nil] at hx
    obtain ⟨c, cs, hcs, hc⟩ := numeral?_head hx
    refine ⟨c, cs, hcs, ?_, ?_⟩
    · rcases hc with rfl | ⟨d, hd⟩
      · decide
      · rw [← Bool.not_eq_true]
        intro hspace
        simp only [isSpace, Bool.or_eq_true, decide_eq_true_eq] at hspace
        rcases hspace with ((rfl | rfl) | rfl) | rfl <;> cases hd
    · intro heq
      subst heq
      rcases hc with hc | ⟨d, hd⟩
      · cases hc
      · cases hd
  | string => exact ⟨_, _, rfl, by decide, by decide⟩
  | @array items _ => cases items <;> exact ⟨_, _, rfl, by decide, by decide⟩
  | @object members _ => cases members <;> exact ⟨_, _, rfl, by decide, by decide⟩

/-- No blanks stand in front of a written value. -/
theorem Value.Legible.skipSpace {v : Value} (h : v.Legible) (rest : List Char) :
    Reader.skipSpace (valueChars v ++ rest) = valueChars v ++ rest := by
  obtain ⟨c, cs, hcs, hspace, -⟩ := h.head
  rw [hcs]
  simp [Reader.skipSpace, hspace]

/-! ## Reading what was written -/

/-- No blanks stand in front of another character. -/
theorem skipSpace_cons {c : Char} (h : isSpace c = false) (cs : List Char) :
    Reader.skipSpace (c :: cs) = c :: cs := by
  simp [Reader.skipSpace, h]

/-- The reader takes a written value from the front of an item.  Every level and every item uses up
one unit of fuel and at least one character. -/
def Value.IsTaken (v : Value) : Prop :=
  ∀ fuel rest, (valueChars v).length ≤ fuel → EndsItem rest →
    value? fuel (valueChars v ++ rest) = some (v.document Number.denoted, rest)

theorem endsItem_itemChars (vs : List Value) (rest : List Char) :
    EndsItem (itemChars vs ++ rest) := by
  cases vs with
  | nil => exact .inr ⟨_, _, rfl, .inr (.inl rfl)⟩
  | cons v vs => exact .inr ⟨_, _, rfl, .inl rfl⟩

theorem endsItem_memberChars (ms : Members) (rest : List Char) :
    EndsItem (memberChars ms ++ rest) := by
  cases ms with
  | nil => exact .inr ⟨_, _, rfl, .inr (.inr rfl)⟩
  | cons m ms => exact .inr ⟨_, _, rfl, .inl rfl⟩

/-- The items of an array, from the first one to the closing bracket. -/
theorem items?_itemChars {vs : List Value} {v : Value}
    (hlegible : ∀ w ∈ v :: vs, w.Legible) (hread : ∀ w ∈ v :: vs, w.IsTaken)
    (fuel : Nat) (rest : List Char)
    (hfuel : (valueChars v).length + (itemChars vs).length ≤ fuel) :
    items? fuel (valueChars v ++ (itemChars vs ++ rest)) =
      some (itemDocuments Number.denoted (v :: vs), rest) := by
  induction vs generalizing v fuel with
  | nil =>
    simp only [itemChars, List.length_cons, List.length_nil] at hfuel
    obtain ⟨fuel, rfl⟩ : ∃ k, fuel = k + 1 := ⟨fuel - 1, by omega⟩
    have hv := hread v (by simp) fuel (itemChars [] ++ rest) (by omega) (endsItem_itemChars _ _)
    unfold items?
    rw [hv]
    rfl
  -- the item is taken, then the comma, and the others by induction with less fuel
  | cons w ws ih =>
    simp only [itemChars, List.length_cons, List.length_append] at hfuel
    obtain ⟨fuel, rfl⟩ : ∃ k, fuel = k + 1 := ⟨fuel - 1, by omega⟩
    have hv := hread v (by simp) fuel (itemChars (w :: ws) ++ rest) (by omega)
      (endsItem_itemChars _ _)
    have hws := ih (v := w) (fun u hu => hlegible u (List.mem_cons_of_mem _ hu))
      (fun u hu => hread u (List.mem_cons_of_mem _ hu)) fuel (by omega)
    have hspace := (hlegible w (by simp)).skipSpace (itemChars ws ++ rest)
    have hcomma : Reader.skipSpace (itemChars (w :: ws) ++ rest) =
        ',' :: (valueChars w ++ (itemChars ws ++ rest)) := by
      simp only [itemChars, List.cons_append, List.append_assoc]
      exact skipSpace_cons (by decide) _
    unfold items?
    rw [hv]
    simp only [hcomma, hspace, hws]
    rfl

/-- A written key is read as the key. -/
theorem quoted?_quoteChars (key : String) (rest : List Char) :
    quoted? (key.toList.flatMap escapeChar ++ '"' :: rest) = some (some key, rest) := by
  rw [quoted?_of_spells (spells_escape key.toList), String.ofList_toList]

/-- What the reader makes of the text behind a member: it is the last one, or others follow. -/
def afterMember? (fuel : Nat) (m : Option String × Document) :
    List Char → Option (List (Option String × Document) × List Char)
  | '\x7d' :: rest => some ([m], rest)
  | ',' :: rest =>
    (members? fuel (Reader.skipSpace rest)).map fun found => (m :: found.1, found.2)
  | _ => none

/-- The first member of an object is read up to what follows its value. -/
theorem members?_cons {m : String × Value} (hlegible : m.2.Legible)
    (hread : m.2.IsTaken) {fuel : Nat} {tail : List Char} (hfuel : (valueChars m.2).length ≤ fuel)
    (htail : EndsItem tail) :
    members? (fuel + 1) (quoteChars m.1.toList ++ ':' :: (valueChars m.2 ++ tail)) =
      afterMember? fuel (some m.1, m.2.document Number.denoted) (Reader.skipSpace tail) := by
  have hkey := quoted?_quoteChars m.1 (':' :: (valueChars m.2 ++ tail))
  have hcolon : Reader.skipSpace (':' :: (valueChars m.2 ++ tail)) =
      ':' :: (valueChars m.2 ++ tail) := skipSpace_cons (by decide) _
  have hspace := hlegible.skipSpace tail
  have hvalue := hread fuel tail hfuel htail
  simp only [quoteChars, List.cons_append, List.append_assoc, List.nil_append]
  rw [members?]
  simp only [hkey, hcolon, hspace, hvalue]
  rfl

/-- The members of an object, from the first one to the closing brace. -/
theorem members?_memberChars {ms : Members} {m : String × Value}
    (hlegible : ∀ m' ∈ m :: ms, m'.2.Legible) (hread : ∀ m' ∈ m :: ms, m'.2.IsTaken)
    (fuel : Nat) (rest : List Char)
    (hfuel : (valueChars m.2).length + (memberChars ms).length ≤ fuel) :
    members? fuel (quoteChars m.1.toList ++ ':' :: (valueChars m.2 ++ (memberChars ms ++ rest))) =
      some (memberDocuments Number.denoted (m :: ms), rest) := by
  induction ms generalizing m fuel with
  | nil =>
    simp only [memberChars, List.length_cons, List.length_nil] at hfuel
    obtain ⟨fuel, rfl⟩ : ∃ k, fuel = k + 1 := ⟨fuel - 1, by omega⟩
    rw [members?_cons (hlegible m (by simp)) (hread m (by simp)) (by omega)
      (endsItem_memberChars _ _)]
    rfl
  -- as for items, with a key and a colon in front of each value
  | cons m' ms ih =>
    simp only [memberChars, List.length_cons, List.length_append] at hfuel
    obtain ⟨fuel, rfl⟩ : ∃ k, fuel = k + 1 := ⟨fuel - 1, by omega⟩
    have hms := ih (m := m') (fun u hu => hlegible u (List.mem_cons_of_mem _ hu))
      (fun u hu => hread u (List.mem_cons_of_mem _ hu)) fuel (by omega)
    have hcomma : Reader.skipSpace (memberChars (m' :: ms) ++ rest) =
        ',' :: (quoteChars m'.1.toList ++
          ':' :: (valueChars m'.2 ++ (memberChars ms ++ rest))) := by
      simp only [memberChars, List.cons_append, List.append_assoc]
      exact skipSpace_cons (by decide) _
    have hquote : Reader.skipSpace (quoteChars m'.1.toList ++
        ':' :: (valueChars m'.2 ++ (memberChars ms ++ rest))) =
        quoteChars m'.1.toList ++ ':' :: (valueChars m'.2 ++ (memberChars ms ++ rest)) :=
      skipSpace_cons (by decide) _
    rw [members?_cons (hlegible m (by simp)) (hread m (by simp)) (by omega)
      (endsItem_memberChars _ _)]
    simp only [hcomma, afterMember?, hquote, hms]
    rfl

/-- **A legible value is read from what was written.** -/
theorem Value.Legible.isTaken {v : Value} (h : v.Legible) : v.IsTaken := by
  -- the first character of a value pays for the call that reads it
  induction h with
  | null =>
    intro fuel rest hfuel _
    obtain ⟨fuel, rfl⟩ : ∃ k, fuel = k + 1 := ⟨fuel - 1, by simp [valueChars] at hfuel; omega⟩
    simp [valueChars, value?, Value.document]
  | @bool b =>
    intro fuel rest hfuel _
    cases b <;>
    · obtain ⟨fuel, rfl⟩ : ∃ k, fuel = k + 1 := ⟨fuel - 1, by simp [valueChars] at hfuel; omega⟩
      simp [valueChars, value?, Value.document]
  | @number n hn =>
    intro fuel rest hfuel hrest
    obtain ⟨x, hx, hvalue⟩ := hn rest hrest
    obtain ⟨c, cs, hcs, -, -⟩ := Value.Legible.head (.number hn)
    rw [hcs, List.length_cons] at hfuel
    obtain ⟨fuel, rfl⟩ : ∃ k, fuel = k + 1 := ⟨fuel - 1, by omega⟩
    rw [valueChars, value?_of_numeral? hx, hvalue, Value.document]
  | @string s =>
    intro fuel rest hfuel _
    simp only [valueChars, quoteChars, List.length_append, List.length_cons] at hfuel
    obtain ⟨fuel, rfl⟩ : ∃ k, fuel = k + 1 := ⟨fuel - 1, by omega⟩
    simp only [valueChars, quoteChars, List.cons_append, List.append_assoc, List.nil_append]
    rw [value?, quoted?_quoteChars, Value.document]
    rfl
  | @array items hlegible ih =>
    intro fuel rest hfuel _
    cases items with
    | nil =>
      obtain ⟨fuel, rfl⟩ : ∃ k, fuel = k + 1 := ⟨fuel - 1, by simp [valueChars] at hfuel; omega⟩
      rfl
    | cons v vs =>
      simp only [valueChars, List.length_append, List.length_cons] at hfuel
      obtain ⟨fuel, rfl⟩ : ∃ k, fuel = k + 1 := ⟨fuel - 1, by omega⟩
      have hitems := items?_itemChars hlegible ih fuel rest (by omega)
      have hspace := Value.Legible.skipSpace (hlegible v (by simp)) (itemChars vs ++ rest)
      obtain ⟨c, cs, hcs, -, hc⟩ := Value.Legible.head (hlegible v (by simp))
      simp only [valueChars, List.cons_append, List.append_assoc]
      rw [value?, hspace]
      -- an item follows the bracket, so the array is not read as the empty one
      split
      · next hbracket =>
        rw [hcs] at hbracket
        exact absurd (List.cons.inj hbracket).1 hc
      · rw [hitems, Value.document]
        rfl
  | @object members hlegible ih =>
    intro fuel rest hfuel _
    cases members with
    | nil =>
      obtain ⟨fuel, rfl⟩ : ∃ k, fuel = k + 1 := ⟨fuel - 1, by simp [valueChars] at hfuel; omega⟩
      rfl
    | cons m ms =>
      simp only [valueChars, List.length_append, List.length_cons] at hfuel
      obtain ⟨fuel, rfl⟩ : ∃ k, fuel = k + 1 := ⟨fuel - 1, by omega⟩
      have hmembers := members?_memberChars hlegible ih fuel rest (by omega)
      have hspace : Reader.skipSpace (quoteChars m.1.toList ++
          ':' :: (valueChars m.2 ++ (memberChars ms ++ rest))) =
          quoteChars m.1.toList ++ ':' :: (valueChars m.2 ++ (memberChars ms ++ rest)) :=
        skipSpace_cons (by decide) _
      simp only [valueChars, List.cons_append, List.append_assoc]
      rw [value?, hspace]
      split
      · next hbrace => exact absurd (List.cons.inj hbrace).1 (by decide)
      · rw [hmembers, Value.document]
        rfl

/-! ## Whole texts -/

/-- **The text of a legible value is read** as the document of the value, up to its numbers. -/
theorem Document.read?_of_legible {v : Value} (h : v.Legible) :
    Document.read? v.render = some (v.document Number.denoted) := by
  have hspace := h.skipSpace []
  have hread := h.isTaken ((valueChars v).length + 1) [] (by omega) (.inl rfl)
  rw [List.append_nil] at hspace hread
  unfold Document.read? Value.render
  simp only [String.toList_ofList, hspace, hread]
  rfl

end Coordination.Json
