/-!
# Segmented text

Text cut at every occurrence of a separator, and put together again.  A text
with `n` separators has `n + 1` pieces, so the empty text is one empty piece and
nothing is lost: joining the pieces gives the text back.
-/

namespace Coordination.Text

/-! ## Characters -/

/-- The pieces of `cs` between occurrences of `sep`, the empty ones included. -/
def splitChars (sep : Char) : List Char → List (List Char)
  | [] => [[]]
  | c :: cs =>
    if c = sep then [] :: splitChars sep cs
    else match splitChars sep cs with
      | [] => [[c]]
      | piece :: pieces => (c :: piece) :: pieces

/-- The pieces in order with `sep` between neighbours. -/
def joinChars (sep : Char) : List (List Char) → List Char
  | [] => []
  | [piece] => piece
  | piece :: next :: pieces => piece ++ sep :: joinChars sep (next :: pieces)

theorem splitChars_ne_nil (sep : Char) (cs : List Char) : splitChars sep cs ≠ [] := by
  cases cs with
  | nil => simp [splitChars]
  | cons c cs =>
    simp only [splitChars]
    split
    · simp
    · split <;> simp

theorem joinChars_cons {sep : Char} {piece : List Char} {pieces : List (List Char)}
    (h : pieces ≠ []) :
    joinChars sep (piece :: pieces) = piece ++ sep :: joinChars sep pieces := by
  cases pieces with
  | nil => exact absurd rfl h
  | cons next rest => rfl

theorem joinChars_splitChars (sep : Char) (cs : List Char) :
    joinChars sep (splitChars sep cs) = cs := by
  induction cs with
  | nil => rfl
  | cons c cs ih =>
    simp only [splitChars]
    split
    · next h => rw [joinChars_cons (splitChars_ne_nil sep cs), ih, h]; rfl
    · split
      · next h => exact absurd h (splitChars_ne_nil sep cs)
      · next piece pieces h =>
        rw [h] at ih
        cases pieces with
        | nil => simpa [joinChars] using ih
        | cons next rest => simpa [joinChars] using ih

/-- A piece holds no separator. -/
theorem not_mem_of_mem_splitChars {sep : Char} {cs piece : List Char}
    (h : piece ∈ splitChars sep cs) : sep ∉ piece := by
  -- on the text: a separator starts a new piece, any other character joins the first
  induction cs generalizing piece with
  | nil => simp_all [splitChars]
  | cons c cs ih =>
    simp only [splitChars] at h
    split at h
    · rcases List.mem_cons.1 h with rfl | h
      · simp
      · exact ih h
    · next hc =>
      split at h
      · next hn => exact absurd hn (splitChars_ne_nil sep cs)
      · next first rest hs =>
        rcases List.mem_cons.1 h with rfl | h
        · have : sep ∉ first := ih (by simp [hs])
          simp [this, Ne.symm hc]
        · exact ih (by simp [hs, h])

theorem splitChars_of_not_mem {sep : Char} {cs : List Char} (h : sep ∉ cs) :
    splitChars sep cs = [cs] := by
  induction cs with
  | nil => rfl
  | cons c cs ih =>
    have hc : c ≠ sep := fun e => h (by simp [e])
    have hr : sep ∉ cs := fun m => h (by simp [m])
    simp [splitChars, hc, ih hr]

theorem splitChars_append_cons {sep : Char} {piece cs : List Char} (h : sep ∉ piece) :
    splitChars sep (piece ++ sep :: cs) = piece :: splitChars sep cs := by
  induction piece with
  | nil => simp [splitChars]
  | cons c piece ih =>
    have hc : c ≠ sep := fun e => h (by simp [e])
    have hr : sep ∉ piece := fun m => h (by simp [m])
    simp [splitChars, hc, ih hr]

/-- Joining is undone by cutting when no piece holds the separator. -/
theorem splitChars_joinChars {sep : Char} {pieces : List (List Char)} (hne : pieces ≠ [])
    (h : ∀ piece ∈ pieces, sep ∉ piece) : splitChars sep (joinChars sep pieces) = pieces := by
  induction pieces with
  | nil => exact absurd rfl hne
  | cons piece pieces ih =>
    cases pieces with
    | nil => exact splitChars_of_not_mem (h piece (by simp))
    | cons next rest =>
      rw [joinChars_cons (by simp), splitChars_append_cons (h piece (by simp)),
        ih (by simp) (fun p hp => h p (by simp [hp]))]

/-! ## Strings -/

/-- The pieces of `s` between occurrences of `sep`. -/
def split (sep : Char) (s : String) : List String :=
  (splitChars sep s.toList).map String.ofList

/-- The pieces in order with `sep` between neighbours. -/
def join (sep : Char) (pieces : List String) : String :=
  String.ofList (joinChars sep (pieces.map String.toList))

/-- What follows `lead` in `s`, when `s` starts with it. -/
def afterLead? (lead s : String) : Option String :=
  (List.isPrefixOf? lead.toList s.toList).map String.ofList

def startsWith (lead s : String) : Bool :=
  (afterLead? lead s).isSome

theorem join_split (sep : Char) (s : String) : join sep (split sep s) = s := by
  have hmap : ((splitChars sep s.toList).map String.ofList).map String.toList =
      splitChars sep s.toList := by
    rw [List.map_map]
    exact List.map_id'' (fun _ => String.toList_ofList) _
  unfold join split
  rw [hmap, joinChars_splitChars, String.ofList_toList]

theorem split_of_not_mem {sep : Char} {s : String} (h : sep ∉ s.toList) : split sep s = [s] := by
  unfold split
  rw [splitChars_of_not_mem h, List.map_singleton, String.ofList_toList]

/-- What stands in front of the first separator is the first piece. -/
theorem split_append {sep : Char} {piece rest : String} (h : sep ∉ piece.toList) :
    split sep (piece ++ String.singleton sep ++ rest) = piece :: split sep rest := by
  have hchars : (piece ++ String.singleton sep ++ rest).toList =
      piece.toList ++ sep :: rest.toList := by simp
  unfold split
  rw [hchars, splitChars_append_cons h, List.map_cons, String.ofList_toList]

theorem not_mem_of_mem_split {sep : Char} {s piece : String} (h : piece ∈ split sep s) :
    sep ∉ piece.toList := by
  obtain ⟨chars, hchars, rfl⟩ := List.mem_map.1 h
  rw [String.toList_ofList]
  exact not_mem_of_mem_splitChars hchars

/-- The first index at which `needle` occurs in `hay`, with the text before and after it. -/
def findChars? (needle : List Char) : List Char → Option (List Char × List Char)
  | [] => if needle = [] then some ([], []) else none
  | c :: cs =>
    match List.isPrefixOf? needle (c :: cs) with
    | some rest => some ([], rest)
    | none => (findChars? needle cs).map fun (before, rest) => (c :: before, rest)

/-- The text before and after the first occurrence of `needle` in `hay`. -/
def find? (needle hay : String) : Option (String × String) :=
  (findChars? needle.toList hay.toList).map fun (before, rest) =>
    (String.ofList before, String.ofList rest)

def contains (needle hay : String) : Bool :=
  (findChars? needle.toList hay.toList).isSome

def replaceChar (old : Char) (new : String) (s : String) : String :=
  String.ofList (s.toList.flatMap fun c => if c = old then new.toList else [c])

end Coordination.Text
