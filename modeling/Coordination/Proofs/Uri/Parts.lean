import Coordination.Proofs.Uri.Paths
import Mathlib.Data.List.TakeDrop
import Mathlib.Data.List.TakeWhile
/-!
# Parts of addresses read back

The parts of an address are told apart by the characters that end them: the scheme by its colon, a
user by the last at-sign, a port by the last colon outside brackets, a query and a fragment by their
marks.  None of these stands in the part itself once the part was read.
-/

namespace Coordination.Uri

/-! ## Cutting -/

/-- Cutting at the end of what satisfies a predicate. -/
theorem span_append {p : Char → Bool} {cs rest : List Char} (h : ∀ c ∈ cs, p c = true)
    (hrest : ∀ c ∈ rest.head?, p c = false) : (cs ++ rest).span p = (cs, rest) := by
  have htake : rest.takeWhile p = [] ∧ rest.dropWhile p = rest := by
    cases rest with
    | nil => exact ⟨rfl, rfl⟩
    | cons c rest =>
      have hc : ¬ p c = true := Bool.eq_false_iff.mp (hrest c rfl)
      exact ⟨List.takeWhile_cons_of_neg hc, List.dropWhile_cons_of_neg hc⟩
  rw [List.span_eq_takeWhile_dropWhile, List.takeWhile_append_of_pos h,
    List.dropWhile_append_of_pos h, htake.1, htake.2, List.append_nil]

/-- What comes before and after the first occurrence of a character. -/
theorem span_ne_append {c : Char} {cs rest : List Char} (h : c ∉ cs)
    (hrest : rest = [] ∨ ∃ ds, rest = c :: ds) : (cs ++ rest).span (· ≠ c) = (cs, rest) := by
  refine span_append (fun d hd => ?_) ?_
  · refine decide_eq_true ?_
    rintro rfl
    exact h hd
  · rcases hrest with rfl | ⟨ds, rfl⟩
    · exact fun d hd => nomatch hd
    · rintro _ ⟨⟩
      simp

theorem splitLast?_append {c : Char} {ds : List Char} (h : c ∉ ds) (cs : List Char) :
    splitLast? c (cs ++ c :: ds) = some (cs, ds) := by
  have hreverse : (cs ++ c :: ds).reverse = ds.reverse ++ c :: cs.reverse := by simp
  unfold splitLast?
  rw [hreverse, span_ne_append (mt List.mem_reverse.mp h) (.inr ⟨_, rfl⟩)]
  simp

theorem splitLast?_of_not_mem {c : Char} {cs : List Char} (h : c ∉ cs) :
    splitLast? c cs = none := by
  have hspan := span_ne_append (mt List.mem_reverse.mp h) (.inl rfl)
  rw [List.append_nil] at hspan
  unfold splitLast?
  rw [hspan]

/-- What is dropped at the end of a text does not reach into a part whose last character stays. -/
theorem dropEnd_append {p : Char → Bool} {front : List Char}
    (h : ∀ c ∈ front.getLast?, p c = false) (back : List Char) :
    ((front ++ back).reverse.dropWhile p).reverse =
      front ++ (back.reverse.dropWhile p).reverse := by
  have hfront : front.reverse.dropWhile p = front.reverse := by
    rw [List.getLast?_eq_head?_reverse] at h
    cases hreverse : front.reverse with
    | nil => rfl
    | cons c cs => exact List.dropWhile_cons_of_neg (by simp [h c (by rw [hreverse]; rfl)])
  rw [List.reverse_append, List.dropWhile_append]
  split
  · next hempty => rw [hfront, List.isEmpty_iff.mp hempty, List.reverse_nil, List.append_nil,
      List.reverse_reverse]
  · rw [List.reverse_append, List.reverse_reverse]

/-- Text that begins without edges keeps its beginning. -/
theorem clean_append {s : String} {front back : List Char} (hs : s.toList = front ++ back)
    (hne : front ≠ []) (h : ∀ c ∈ front, 0x20 < c.toNat) :
    clean s = front ++ (back.reverse.dropWhile isEdge).reverse.filter
      fun c => !(c = '\t' || c = '\n' || c = '\x0d') := by
  have hedge : ∀ c ∈ front, isEdge c = false := fun c hc =>
    decide_eq_false (Nat.not_le_of_lt (h c hc))
  -- the front begins with no edge, so that only the back is trimmed
  have hstart : (front ++ back).dropWhile isEdge = front ++ back := by
    obtain ⟨c, cs, rfl⟩ := List.exists_cons_of_ne_nil hne
    exact List.dropWhile_cons_of_neg (by simp [hedge c List.mem_cons_self])
  unfold clean
  dsimp only
  rw [hs, hstart, dropEnd_append (fun c hc => hedge c (List.mem_of_getLast? hc)),
    List.filter_append]
  congr 1
  rw [List.filter_eq_self]
  intro c hc
  have hother : ∀ d : Char, d.toNat ≤ 0x20 → c ≠ d := by
    rintro d hd rfl
    exact absurd (h c hc) (Nat.not_lt_of_le hd)
  simp [hother '\t' (by decide), hother '\n' (by decide), hother '\x0d' (by decide)]

theorem clean_eq {s : String} (h : ∀ c ∈ s.toList, 0x20 < c.toNat) : clean s = s.toList := by
  by_cases hempty : s.toList = []
  · unfold clean
    rw [hempty]
    rfl
  · rw [clean_append (List.append_nil _).symm hempty h]
    simp

/-! ## Schemes -/

/-- A scheme in lower case. -/
def IsScheme (scheme : String) : Prop :=
  ∃ c more, scheme.toList = c :: more ∧ c.isAlpha = true ∧ (∀ d ∈ more, isSchemeChar d = true) ∧
    ∀ d ∈ c :: more, d.toLower = d

theorem lt_of_isSchemeChar {c : Char} (h : isSchemeChar c = true) : c.toNat < 0x80 := by
  replace h : (c.isUpper || c.isLower || c.isDigit || decide (c = '+') || decide (c = '-') ||
    decide (c = '.')) = true := h
  simp only [Bool.or_eq_true, decide_eq_true_eq, or_assoc] at h
  rcases h with h | h | h | rfl | rfl | rfl
  · exact (le_of_isUpper h).trans_lt (by decide)
  · exact (le_of_isLower h).trans_lt (by decide)
  · exact (Char.isDigit_iff_toNat.mp h).2.trans_lt (by decide)
  all_goals decide

/-- Lower case is in lower case, and the characters of a scheme stay such. -/
theorem toLower_of_isSchemeChar {c : Char} (h : isSchemeChar c = true) :
    isSchemeChar c.toLower = true ∧ c.toLower.toLower = c.toLower ∧
      (c.isAlpha = true → c.toLower.isAlpha = true) :=
  forall_ascii (P := fun c => isSchemeChar c = true →
    isSchemeChar c.toLower = true ∧ c.toLower.toLower = c.toLower ∧
      (c.isAlpha = true → c.toLower.isAlpha = true))
    (by decide +kernel) (lt_of_isSchemeChar h) h

theorem isScheme_of_scheme? {cs rest : List Char} {scheme : String}
    (h : scheme? cs = some (scheme, rest)) : IsScheme scheme := by
  unfold scheme? at h
  split at h
  · next c cs =>
    rw [Option.ite_none_right_eq_some] at h
    obtain ⟨halpha, h⟩ := h
    rcases hspan : cs.span isSchemeChar with ⟨more, after⟩
    rw [hspan] at h
    dsimp only at h
    split at h
    · cases h
      have hmore : ∀ d ∈ more, isSchemeChar d = true := by
        rw [List.span_eq_takeWhile_dropWhile] at hspan
        rw [← (Prod.mk.inj hspan).1]
        exact fun d hd => List.mem_takeWhile_imp hd
      have hfirst : isSchemeChar c = true := by
        simp [isSchemeChar, Char.isAlphanum, halpha]
      have hboth : ∀ d ∈ c :: more, isSchemeChar d = true :=
        List.forall_mem_cons.mpr ⟨hfirst, hmore⟩
      -- capitals are lowered, and stay characters of a scheme
      refine ⟨c.toLower, more.map Char.toLower, String.toList_ofList,
        (toLower_of_isSchemeChar hfirst).2.2 halpha, fun d hd => ?_, fun d hd => ?_⟩
      · obtain ⟨e, he, rfl⟩ := List.mem_map.mp hd
        exact (toLower_of_isSchemeChar (hmore e he)).1
      · rw [← List.map_cons] at hd
        obtain ⟨e, he, rfl⟩ := List.mem_map.mp hd
        exact (toLower_of_isSchemeChar (hboth e he)).2.1
    · cases h
  · cases h

theorem scheme?_append {scheme : String} (h : IsScheme scheme) (rest : List Char) :
    scheme? (scheme.toList ++ ':' :: rest) = some (scheme, rest) := by
  obtain ⟨c, more, heq, halpha, hmore, hlower⟩ := h
  have hspan : (more ++ ':' :: rest).span isSchemeChar = (more, ':' :: rest) :=
    span_append hmore (by rintro _ ⟨⟩; decide)
  have hself : (c :: more).map Char.toLower = c :: more :=
    (List.map_congr_left hlower).trans (List.map_id _)
  rw [heq, List.cons_append]
  unfold scheme?
  dsimp only
  rw [if_pos halpha, hspan]
  dsimp only
  rw [hself, ← heq, String.ofList_toList]
  rfl

/-! ## Queries and fragments -/

/-- The text of a part that may be absent, behind its mark. -/
def markedChars (mark : Char) (part : Option String) : List Char :=
  match part with
  | some text => mark :: text.toList
  | none => []

theorem markedChars_cases (mark : Char) (part : Option String) :
    markedChars mark part = [] ∨ ∃ cs, markedChars mark part = mark :: cs := by
  cases part with
  | none => exact .inl rfl
  | some text => exact .inr ⟨_, rfl⟩

/-- The parts behind the authority are told apart by their marks. -/
theorem splitTail_append {path : List Char} {query fragment : Option String}
    (hpath : ∀ c ∈ path, c ≠ '?' ∧ c ≠ '#') (hquery : ∀ q ∈ query, IsPlain specialQuerySet q.toList)
    (hfragment : ∀ f ∈ fragment, IsPlain fragmentSet f.toList) :
    splitTail true (path ++ markedChars '?' query ++ markedChars '#' fragment) =
      (path, query, fragment) := by
  -- the fragment is cut off first, so there must be no number sign before it
  have hmark : '#' ∉ path ++ markedChars '?' query := by
    intro hmem
    rcases List.mem_append.mp hmem with hmem | hmem
    · exact (hpath _ hmem).2 rfl
    · cases query with
      | none => cases hmem
      | some q =>
        rcases List.mem_cons.mp hmem with heq | hmem
        · exact absurd heq (by decide)
        · exact absurd (hquery q rfl '#' hmem).2 (by decide)
  unfold splitTail
  rw [span_ne_append hmark (markedChars_cases '#' fragment)]
  dsimp only
  rw [span_ne_append (fun hmem => (hpath _ hmem).1 rfl) (markedChars_cases '?' query)]
  dsimp only
  congr 2
  · cases query with
    | none => rfl
    | some q =>
      show some (String.ofList (escapeChars specialQuerySet q.toList)) = some q
      rw [(hquery q rfl).escapeChars_eq, String.ofList_toList]
  · cases fragment with
    | none => rfl
    | some f =>
      show some (String.ofList (escapeChars fragmentSet f.toList)) = some f
      rw [(hfragment f rfl).escapeChars_eq, String.ofList_toList]

/-- The query and fragment of an address that was read. -/
theorem isPlain_of_splitTail (cs : List Char) :
    (∀ q ∈ (splitTail true cs).2.1, IsPlain specialQuerySet q.toList) ∧
      ∀ f ∈ (splitTail true cs).2.2, IsPlain fragmentSet f.toList := by
  unfold splitTail
  dsimp only
  refine ⟨fun q hq => ?_, fun f hf => ?_⟩
  · split at hq
    · cases hq
      rw [String.toList_ofList]
      exact isPlain_escapeChars (forall_mem_of_all (by decide)) _
    · cases hq
  · split at hf
    · cases hf
      rw [String.toList_ofList]
      exact isPlain_escapeChars (forall_mem_of_all (by decide)) _
    · cases hf

/-! ## Ports -/

/-- The text of a port, behind its colon. -/
def portChars (port : Option Nat) : List Char :=
  match port with
  | some p => ':' :: Nat.toDigits 10 p
  | none => []

/-- Reading the digits of a port is not cut short. -/
theorem foldl_toDigits {n : Nat} (h : n ≤ 65535) :
    (Nat.toDigits 10 n).foldl
      (fun n d => if n ≤ 65535 then n * 10 + (d.toNat - 48) else n) 0 = n := by
  have hdigit : ∀ d < 10, (Nat.digitChar d).toNat - 48 = d := by decide
  induction n using Nat.strongRecOn with
  | _ n ih =>
    by_cases hsmall : n < 10
    · rw [Nat.toDigits_of_lt_base hsmall]
      simp [hdigit n hsmall]
    · rw [Nat.toDigits_of_base_le (by decide) (by omega), List.foldl_append,
        ih (n / 10) (by omega) (by omega), List.foldl_cons, List.foldl_nil,
        if_pos (by omega), hdigit _ (Nat.mod_lt n (by decide))]
      omega

theorem port?_toDigits {scheme : String} {p : Nat} (h : p ≤ 65535)
    (hne : defaultPort? scheme ≠ some p) :
    port? scheme (some (Nat.toDigits 10 p)) = some (some p) := by
  have hdigits : (Nat.toDigits 10 p).all Char.isDigit = true :=
    List.all_eq_true.mpr fun c hc => Nat.isDigit_of_mem_toDigits (by decide) (by decide) hc
  obtain ⟨d, ds, heq⟩ := List.exists_cons_of_ne_nil (Nat.toDigits_ne_nil (n := p) (b := 10))
  have hfold := foldl_toDigits h
  rw [heq] at hdigits hfold ⊢
  unfold port?
  dsimp only
  rw [if_pos hdigits, hfold, if_pos h, if_neg hne]

theorem of_port? {scheme : String} {digits : Option (List Char)} {port : Option Nat}
    (h : port? scheme digits = some port) :
    ∀ p ∈ port, p ≤ 65535 ∧ defaultPort? scheme ≠ some p := by
  unfold port? at h
  split at h
  · cases h
    exact fun p hp => nomatch hp
  · cases h
    exact fun p hp => nomatch hp
  · rw [Option.ite_none_right_eq_some] at h
    obtain ⟨-, h⟩ := h
    dsimp only at h
    rw [Option.ite_none_right_eq_some] at h
    obtain ⟨hle, h⟩ := h
    cases h
    intro p hp
    -- the default port is dropped, so that a port that is kept is another
    rw [Option.mem_def, Option.ite_none_left_eq_some] at hp
    obtain ⟨hne, hp⟩ := hp
    cases hp
    exact ⟨hle, hne⟩

/-- The host and port are told apart by the colon that stands in no brackets. -/
theorem splitPort_append {host : List Char} (h : IsHost host) (port : Option Nat) :
    splitPort (host ++ portChars port) = (host, port.map (Nat.toDigits 10)) := by
  have hdigit : ∀ {p : Nat} {c : Char}, c ∈ Nat.toDigits 10 p → c.isDigit = true :=
    Nat.isDigit_of_mem_toDigits (by decide) (by decide)
  unfold splitPort
  cases port with
  | some p =>
    -- behind the last colon there are digits alone, so it is the colon of the port
    have hcolon : ':' ∉ Nat.toDigits 10 p := fun hmem => absurd (hdigit hmem) (by decide)
    have hbracket : (Nat.toDigits 10 p).contains ']' = false := by
      rw [← Bool.not_eq_true, List.contains_iff_mem]
      exact fun hmem => absurd (hdigit hmem) (by decide)
    have hlast : splitLast? ':' (host ++ portChars (some p)) = some (host, Nat.toDigits 10 p) :=
      splitLast?_append hcolon host
    rw [hlast]
    dsimp only
    rw [hbracket]
    rfl
  | none =>
    rw [portChars, List.append_nil]
    rcases h.colon with hnone | ⟨inner, rfl⟩
    · rw [splitLast?_of_not_mem hnone]
      rfl
    · by_cases hmem : ':' ∈ inner
      · -- behind the last colon stands the closing bracket
        obtain ⟨after, before, heq, hafter⟩ :=
          List.eq_append_cons_of_mem (List.mem_reverse.mpr hmem)
        have hlast : inner ++ [']'] = before.reverse ++ ':' :: (after.reverse ++ [']']) := by
          rw [← List.reverse_reverse inner, heq]
          simp
        rw [hlast, splitLast?_append (by simpa using hafter)]
        simp
      · rw [splitLast?_of_not_mem (by simpa using hmem)]
        rfl

/-! ## Users -/

/-- The text of a user, before the at-sign. -/
def userChars (username : String) (password : Option String) : List Char :=
  match password with
  | some p => username.toList ++ ':' :: p.toList ++ ['@']
  | none => if username = "" then [] else username.toList ++ ['@']

/-- A name and password as they stand in an address. -/
structure IsUser (username : String) (password : Option String) : Prop where
  username : IsPlain userSet username.toList
  password : ∀ p ∈ password, p ≠ "" ∧ IsPlain userSet p.toList

theorem isUser_user (cs : List Char) : IsUser (user cs).1 (user cs).2 := by
  have hplain : ∀ ds, IsPlain userSet (String.ofList (escapeChars userSet ds)).toList := by
    intro ds
    rw [String.toList_ofList]
    exact isPlain_escapeChars (forall_mem_of_all (by decide)) ds
  unfold user
  dsimp only
  split
  -- a password that is empty is dropped, so that one that is kept has a character
  · refine ⟨hplain _, fun p hp => ?_⟩
    rw [Option.mem_def, Option.ite_none_left_eq_some] at hp
    obtain ⟨hne, hp⟩ := hp
    cases hp
    refine ⟨fun hempty => hne ?_, hplain _⟩
    have hnil : escapeChars userSet _ = [] := String.ofList_eq_empty_iff.mp hempty
    exact escapeChars_eq_nil hnil
  · exact ⟨hplain _, fun p hp => nomatch hp⟩

theorem IsUser.user_eq {username p : String} (h : IsUser username (some p)) :
    user (username.toList ++ ':' :: p.toList) = (username, some p) := by
  obtain ⟨hempty, hp⟩ := h.password p rfl
  have hcolon : ':' ∉ username.toList := fun hmem =>
    absurd (h.username ':' hmem).2 (by decide)
  have hne : p.toList ≠ [] := by simpa using hempty
  unfold user
  rw [span_ne_append hcolon (.inr ⟨_, rfl⟩)]
  dsimp only
  rw [if_neg hne, h.username.escapeChars_eq, hp.escapeChars_eq, String.ofList_toList,
    String.ofList_toList]

theorem IsUser.user_eq_of_none {username : String} (h : IsUser username none) :
    user username.toList = (username, none) := by
  have hcolon : ':' ∉ username.toList := fun hmem =>
    absurd (h.username ':' hmem).2 (by decide)
  have hspan := span_ne_append hcolon (.inl rfl)
  rw [List.append_nil] at hspan
  unfold user
  rw [hspan]
  dsimp only
  rw [h.username.escapeChars_eq, String.ofList_toList]

/-- The user is read back, if there is one. -/
theorem IsUser.splitLast?_userChars {username : String} {password : Option String}
    (h : IsUser username password) {place : List Char} (hplace : '@' ∉ place) :
    (∃ who, splitLast? '@' (userChars username password ++ place) = some (who, place) ∧
        user who = (username, password)) ∨
      splitLast? '@' (userChars username password ++ place) = none ∧
        userChars username password = [] ∧ username = "" ∧ password = none := by
  unfold userChars
  -- a name or a password puts a sign before the place; without both there is none
  cases password with
  | some p =>
    have hwho : username.toList ++ ':' :: p.toList ++ ['@'] ++ place =
        (username.toList ++ ':' :: p.toList) ++ '@' :: place := by simp
    dsimp only
    rw [hwho]
    exact .inl ⟨_, splitLast?_append hplace _, h.user_eq⟩
  | none =>
    dsimp only
    by_cases hempty : username = ""
    · rw [if_pos hempty]
      exact .inr ⟨splitLast?_of_not_mem hplace, rfl, hempty, rfl⟩
    · rw [if_neg hempty, List.append_assoc, List.singleton_append]
      exact .inl ⟨_, splitLast?_append hplace _, h.user_eq_of_none⟩

end Coordination.Uri
