import Coordination.Proofs.Uri.Canonical
import Mathlib.Data.List.Infix
/-!
# Paths of addresses read back

What was escaped need not be escaped again, and what resolving a path leaves has no dot segment: no
escape that had to be written is that of a dot.  So the segments of a path that was read are read
back from its text.  Main statements: `isSegment_of_mem_segments` and `segments_pathChars`.
-/

namespace Coordination.Uri

/-! ## Escapes -/

/-- Characters of which none has to be escaped. -/
def IsPlain (set : EscapeSet) (cs : List Char) : Prop := ∀ c ∈ cs, c.toNat < 0x80 ∧ set c = false

variable {set : EscapeSet}

theorem IsPlain.escapeChars_eq {cs : List Char} (h : IsPlain set cs) : escapeChars set cs = cs := by
  unfold escapeChars
  have hself : ∀ c ∈ cs, escapeChar set c = [c] := by
    intro c hc
    obtain ⟨hascii, hset⟩ := h c hc
    unfold escapeChar
    rw [if_pos]
    simp [hascii, hset]
  rw [List.flatMap_congr hself]
  exact List.flatMap_singleton' cs

theorem upperDigit_mem : ∀ n < 16, Text.Hex.upperDigit n ∈ "0123456789ABCDEF".toList := by
  decide

/-- The characters of an escape. -/
def escapeAlphabet : List Char := '%' :: "0123456789ABCDEF".toList

/-- What stands in escaped text stood in the text, or belongs to an escape. -/
theorem of_mem_escapeChars {cs : List Char} {d : Char} (hd : d ∈ escapeChars set cs) :
    d ∈ cs ∧ d.toNat < 0x80 ∧ set d = false ∨ d ∈ escapeAlphabet := by
  obtain ⟨c, hc, hd⟩ := List.mem_flatMap.mp hd
  unfold escapeChar at hd
  -- the character stays as it is, or its bytes are escaped
  split at hd
  · next hplain =>
    rw [List.mem_singleton.mp hd]
    exact .inl ⟨hc, by simpa using hplain⟩
  · obtain ⟨b, -, hd⟩ := List.mem_flatMap.mp hd
    have hb := b.toNat_lt
    have hhigh := upperDigit_mem (b.toNat / 16) (by omega)
    have hlow := upperDigit_mem (b.toNat % 16) (Nat.mod_lt _ (by decide))
    simp only [escapeByte, List.mem_cons, List.not_mem_nil, or_false] at hd
    rcases hd with rfl | rfl | rfl
    · exact .inr List.mem_cons_self
    · exact .inr (List.mem_cons_of_mem _ hhigh)
    · exact .inr (List.mem_cons_of_mem _ hlow)

/-- What was escaped need not be escaped. -/
theorem isPlain_escapeChars (hset : ∀ c ∈ escapeAlphabet, set c = false) (cs : List Char) :
    IsPlain set (escapeChars set cs) := by
  intro d hd
  rcases of_mem_escapeChars hd with ⟨-, hplain⟩ | hmem
  · exact hplain
  · have hascii : ∀ d ∈ escapeAlphabet, d.toNat < 0x80 := forall_mem_of_all (by decide)
    exact ⟨hascii d hmem, hset d hmem⟩

/-- The first byte of a character tells whether it is beyond ASCII. -/
theorem exists_utf8EncodeChar_eq (c : Char) :
    ∃ b bs, String.utf8EncodeChar c = b :: bs ∧
      (c.toNat < 0x80 ∧ b.toNat = c.toNat ∨ 0x80 ≤ c.toNat ∧ 0x80 ≤ b.toNat) := by
  have hval : c.val.toNat = c.toNat := rfl
  have hlarge : ∀ {n m : Nat}, n % m < m → ∀ k, m + k ≤ 0x100 → 0x80 ≤ k →
      0x80 ≤ (UInt8.ofNat (n % m + k)).toNat := by
    intro n m hm k hsum hk
    rw [UInt8.toNat_ofNat', Nat.mod_eq_of_lt (by omega)]
    omega
  unfold String.utf8EncodeChar
  dsimp only
  -- one byte below 0x80; two, three or four bytes from there on, all of them at least 0x80
  split
  · refine ⟨_, _, rfl, .inl ⟨by omega, ?_⟩⟩
    rw [UInt8.toNat_ofNat', Nat.mod_eq_of_lt (by omega)]
    exact hval
  · split
    · exact ⟨_, _, rfl, .inr ⟨by omega,
        hlarge (Nat.mod_lt _ (by decide)) _ (by decide) (by decide)⟩⟩
    · split
      · exact ⟨_, _, rfl,
          .inr ⟨by omega, hlarge (Nat.mod_lt _ (by decide)) _ (by decide) (by decide)⟩⟩
      · exact ⟨_, _, rfl,
          .inr ⟨by omega, hlarge (Nat.mod_lt _ (by decide)) _ (by decide) (by decide)⟩⟩

theorem escapeChars_eq_nil {cs : List Char} (h : escapeChars set cs = []) : cs = [] := by
  cases cs with
  | nil => rfl
  | cons c cs =>
    have hc : escapeChar set c = [] := (List.append_eq_nil_iff.mp h).1
    obtain ⟨b, bs, hbytes, -⟩ := exists_utf8EncodeChar_eq c
    unfold escapeChar at hc
    rw [hbytes] at hc
    split at hc <;> cases hc

/-! ## Paths -/

/-- A segment as it stands in the path of an address. -/
structure IsSegment (cs : List Char) : Prop where
  plain : IsPlain pathSet cs
  noSlash : '/' ∉ cs
  noBackslash : '\\' ∉ cs
  notSingle : isSingleDot cs = false
  notDouble : isDoubleDot cs = false

theorem isSegment_nil : IsSegment [] :=
  ⟨(fun c hc => nomatch hc), List.not_mem_nil, List.not_mem_nil, by decide, by decide⟩

/-- The texts that stand for a segment, or for the one above, with the escape in lower case. -/
def dotTexts : List (List Char) :=
  [".", "%2e", "..", ".%2e", "%2e.", "%2e%2e"].map String.toList

theorem mem_dotTexts {cs : List Char} (h : isSingleDot cs = true ∨ isDoubleDot cs = true) :
    cs.map Char.toLower ∈ dotTexts := by
  have htext : ∀ {s : String}, String.ofList (cs.map Char.toLower) = s →
      s.toList ∈ dotTexts → cs.map Char.toLower ∈ dotTexts := by
    rintro s rfl hmem
    rwa [String.toList_ofList] at hmem
  simp only [isSingleDot, isDoubleDot, Bool.or_eq_true, decide_eq_true_eq] at h
  rcases h with (h | h) | ((h | h) | h) | h <;> exact htext h (by decide)

/-- An escape that had to be written is not that of a dot. -/
theorem escapeChars_eq_of_mem_dotTexts {cs : List Char}
    (h : (escapeChars pathSet cs).map Char.toLower ∈ dotTexts) : escapeChars pathSet cs = cs := by
  refine IsPlain.escapeChars_eq fun c hc => ?_
  by_contra hescaped
  obtain ⟨before, after, rfl⟩ := List.append_of_mem hc
  obtain ⟨b, bs, hbytes, hfirst⟩ := exists_utf8EncodeChar_eq c
  have hescape : escapeChar pathSet c = escapeByte b ++ bs.flatMap escapeByte := by
    unfold escapeChar
    rw [if_neg (by simpa using hescaped), hbytes, List.flatMap_cons]
  -- every percent sign in such a text begins the escape of a dot
  have htails : ∀ text ∈ dotTexts, ∀ rest ∈ text.tails, rest.head? = some '%' →
      rest.take 3 = "%2e".toList := by decide
  have hrest : (escapeByte b ++ bs.flatMap escapeByte ++ escapeChars pathSet after).map Char.toLower
      <:+ (escapeChars pathSet (before ++ c :: after)).map Char.toLower := by
    refine List.IsSuffix.map _ ⟨escapeChars pathSet before, ?_⟩
    rw [← hescape]
    simp [escapeChars]
  have hdot := htails _ h _ ((List.mem_tails _ _).mpr hrest) rfl
  have hdigits : ∀ n < 256, ['%', Text.Hex.upperDigit (n / 16), Text.Hex.upperDigit (n % 16)].map
      Char.toLower = "%2e".toList → n = 0x2e := by decide +kernel
  have hb := hdigits b.toNat b.toNat_lt hdot
  rcases hfirst with ⟨hascii, heq⟩ | ⟨-, hlarge⟩
  · refine hescaped ⟨hascii, ?_⟩
    rw [← Char.ofNat_toNat c, ← heq, hb]
    decide
  · omega

theorem isSegment_escapeChars {cs : List Char} (hslash : '/' ∉ cs) (hback : '\\' ∉ cs)
    (hsingle : isSingleDot cs = false) (hdouble : isDoubleDot cs = false) :
    IsSegment (escapeChars pathSet cs) := by
  have hnew : ∀ c, c ∉ cs → c ∉ escapeAlphabet → c ∉ escapeChars pathSet cs := by
    intro c hc halphabet hmem
    exact (of_mem_escapeChars hmem).elim (fun h => hc h.1) halphabet
  refine ⟨isPlain_escapeChars (forall_mem_of_all (by decide)) cs, hnew _ hslash (by decide),
    hnew _ hback (by decide), ?_, ?_⟩
  · rw [← Bool.not_eq_true]
    intro hdot
    rw [escapeChars_eq_of_mem_dotTexts (mem_dotTexts (.inl hdot)), hsingle] at hdot
    cases hdot
  · rw [← Bool.not_eq_true]
    intro hdot
    rw [escapeChars_eq_of_mem_dotTexts (mem_dotTexts (.inr hdot)), hdouble] at hdot
    cases hdot

/-- Dot segments are resolved, and the other ones are escaped. -/
theorem isSegment_of_mem_resolve {above : List String} {pieces : List (List Char)}
    (habove : ∀ s ∈ above, IsSegment s.toList) (hpieces : ∀ p ∈ pieces, '/' ∉ p ∧ '\\' ∉ p) :
    ∀ s ∈ resolve above pieces, IsSegment s.toList := by
  have hnil : IsSegment "".toList := isSegment_nil
  have hdrop : ∀ {above : List String}, (∀ s ∈ above, IsSegment s.toList) →
      ∀ s ∈ above.drop 1, IsSegment s.toList := fun habove s hs =>
    habove s (List.mem_of_mem_drop hs)
  have hescaped : ∀ {p : List Char}, '/' ∉ p ∧ '\\' ∉ p → ¬ isDoubleDot p = true →
      ¬ isSingleDot p = true → IsSegment (String.ofList (escapeChars pathSet p)).toList := by
    intro p hp hdouble hsingle
    rw [String.toList_ofList]
    exact isSegment_escapeChars hp.1 hp.2 (Bool.eq_false_iff.mpr hsingle)
      (Bool.eq_false_iff.mpr hdouble)
  have hreverse : ∀ {above : List String}, (∀ s ∈ above, IsSegment s.toList) →
      ∀ s ∈ above.reverse, IsSegment s.toList := fun habove s hs =>
    habove s (List.mem_reverse.mp hs)
  -- double dots drop a segment, single dots add none, any other piece is escaped and kept
  fun_induction resolve above pieces with
  | case1 above => exact hreverse habove
  | case2 above last hdouble =>
    exact hreverse (List.forall_mem_cons.mpr ⟨hnil, hdrop habove⟩)
  | case3 above last hdouble hsingle => exact hreverse (List.forall_mem_cons.mpr ⟨hnil, habove⟩)
  | case4 above last hdouble hsingle =>
    have hlast := hescaped (hpieces last (by simp)) hdouble hsingle
    exact hreverse (List.forall_mem_cons.mpr ⟨hlast, habove⟩)
  | case5 above piece next rest hdouble ih =>
    exact ih (hdrop habove) (List.forall_mem_cons.mp hpieces).2
  | case6 above piece next rest hdouble hsingle ih =>
    exact ih habove (List.forall_mem_cons.mp hpieces).2
  | case7 above piece next rest hdouble hsingle ih =>
    obtain ⟨hpiece, hrest⟩ := List.forall_mem_cons.mp hpieces
    exact ih (List.forall_mem_cons.mpr ⟨hescaped hpiece hdouble hsingle, habove⟩) hrest

theorem resolve_ne_nil {above : List String} {pieces : List (List Char)} (h : pieces ≠ []) :
    resolve above pieces ≠ [] := by
  fun_induction resolve above pieces with
  | case1 above => exact absurd rfl h
  | case2 above last hdouble => simp
  | case3 above last hdouble hsingle => simp
  | case4 above last hdouble hsingle => simp
  | case5 above piece next rest hdouble ih => exact ih (List.cons_ne_nil _ _)
  | case6 above piece next rest hdouble hsingle ih => exact ih (List.cons_ne_nil _ _)
  | case7 above piece next rest hdouble hsingle ih => exact ih (List.cons_ne_nil _ _)

/-- Segments without dots are resolved as they stand. -/
theorem resolve_toList {above segments : List String}
    (h : ∀ s ∈ segments, IsSegment s.toList) (hne : segments ≠ []) :
    resolve above (segments.map String.toList) = above.reverse ++ segments := by
  -- on the segments, above any that were read before; none is a dot or two
  induction segments generalizing above with
  | nil => exact absurd rfl hne
  | cons s segments ih =>
    obtain ⟨hs, hrest⟩ := List.forall_mem_cons.mp h
    have hself : String.ofList (escapeChars pathSet s.toList) = s := by
      rw [hs.plain.escapeChars_eq, String.ofList_toList]
    have hdouble : ¬ isDoubleDot s.toList = true := Bool.eq_false_iff.mp hs.notDouble
    have hsingle : ¬ isSingleDot s.toList = true := Bool.eq_false_iff.mp hs.notSingle
    cases segments with
    | nil =>
      rw [List.map_singleton, resolve, if_neg hdouble, if_neg hsingle, hself, List.reverse_cons]
    | cons next rest =>
      have hnext : resolve (s :: above) ((next :: rest).map String.toList) =
          (s :: above).reverse ++ next :: rest := ih hrest (List.cons_ne_nil next rest)
      rw [List.map_cons, List.map_cons, resolve, if_neg hdouble, if_neg hsingle, hself,
        ← List.map_cons, hnext, List.reverse_cons, List.append_assoc, List.singleton_append]

def pathChars (segments : List String) : List Char :=
  segments.flatMap fun s => '/' :: s.toList

theorem pathChars_eq {segs : List String} (hne : segs ≠ []) :
    pathChars segs = '/' :: Text.joinChars '/' (segs.map String.toList) := by
  induction segs with
  | nil => exact absurd rfl hne
  | cons s segs ih =>
    cases segs with
    | nil => simp [pathChars, Text.joinChars]
    | cons next rest =>
      have hcons : pathChars (s :: next :: rest) =
          '/' :: s.toList ++ pathChars (next :: rest) := rfl
      have hjoin : Text.joinChars '/' ((s :: next :: rest).map String.toList) =
          s.toList ++ '/' :: Text.joinChars '/' ((next :: rest).map String.toList) := rfl
      rw [hcons, ih (List.cons_ne_nil next rest), hjoin, List.cons_append]

/-- The characters of a path of segments. -/
theorem of_mem_pathChars {segs : List String} (h : ∀ s ∈ segs, IsSegment s.toList) {c : Char}
    (hc : c ∈ pathChars segs) : c = '/' ∨ (c.toNat < 0x80 ∧ pathSet c = false ∧ c ≠ '\\') := by
  obtain ⟨s, hs, hc⟩ := List.mem_flatMap.mp hc
  refine (List.mem_cons.mp hc).imp_right fun hc => ?_
  obtain ⟨hascii, hset⟩ := (h s hs).plain c hc
  refine ⟨hascii, hset, ?_⟩
  rintro rfl
  exact (h s hs).noBackslash hc

theorem segments_pathChars {segs : List String} (h : ∀ s ∈ segs, IsSegment s.toList)
    (hne : segs ≠ []) : segments true (pathChars segs) = segs := by
  -- no segment holds a slash of either kind, so that the path splits where it was joined
  have hslashes : (pathChars segs).map (fun c => if c = '\\' then '/' else c) = pathChars segs := by
    refine (List.map_congr_left fun c hc => ?_).trans (List.map_id _)
    rcases of_mem_pathChars h hc with rfl | ⟨-, -, hback⟩
    · rfl
    · exact if_neg hback
  have hsplit : Text.splitChars '/' (Text.joinChars '/' (segs.map String.toList)) =
      segs.map String.toList := by
    refine Text.splitChars_joinChars (by simpa using hne) fun piece hpiece => ?_
    obtain ⟨s, hs, rfl⟩ := List.mem_map.mp hpiece
    exact (h s hs).noSlash
  unfold segments
  dsimp only
  rw [if_pos rfl, hslashes, pathChars_eq hne]
  show resolve [] (Text.splitChars '/' _) = segs
  rw [hsplit, resolve_toList h hne]
  rfl

/-- A path that was read has such segments. -/
theorem isSegment_of_mem_segments (cs : List Char) :
    segments true cs ≠ [] ∧ ∀ s ∈ segments true cs, IsSegment s.toList := by
  have hpieces : ∀ ds : List Char, '\\' ∉ ds →
      ∀ p ∈ Text.splitChars '/' ds, '/' ∉ p ∧ '\\' ∉ p := by
    intro ds hds p hp
    exact ⟨Text.not_mem_of_mem_splitChars hp, fun hmem => hds (Text.mem_of_mem_splitChars hp hmem)⟩
  -- after backslashes were turned there is none left
  have hback : '\\' ∉ cs.map fun c => if c = '\\' then '/' else c := by
    intro hmem
    obtain ⟨c, -, hc⟩ := List.mem_map.mp hmem
    split at hc
    · exact absurd hc (by decide)
    · next hne => exact hne hc
  have hempty : ∀ s ∈ ([] : List String), IsSegment s.toList := fun s hs => nomatch hs
  unfold segments
  dsimp only
  rw [if_pos rfl]
  split
  · exact ⟨List.cons_ne_nil _ _, List.forall_mem_singleton.mpr isSegment_nil⟩
  · next rest heq =>
    rw [heq] at hback
    refine ⟨resolve_ne_nil (Text.splitChars_ne_nil _ _), ?_⟩
    exact isSegment_of_mem_resolve hempty
      (hpieces rest fun hmem => hback (List.mem_cons_of_mem _ hmem))
  · refine ⟨resolve_ne_nil (Text.splitChars_ne_nil _ _), ?_⟩
    exact isSegment_of_mem_resolve hempty (hpieces _ hback)

end Coordination.Uri
