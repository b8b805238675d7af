import Coordination.Proofs.Uri.Parts
/-!
# Addresses of the web read back

An address that was read is canonical: its parts hold only what need not be escaped, its host is
canonical, its port is not the usual one, and its path has no dot segment.  The text of a canonical
address is read as this address again.  Main statements: `IsCanonical.of_parse?` and
`IsCanonical.parse?_render`.
-/

namespace Coordination.Uri

/-! ## Addresses -/

/-- An address as reading gives it, under a scheme of the web that has a usual port. -/
structure IsCanonical (u : Uri) : Prop where
  scheme : IsScheme u.scheme
  web : (defaultPort? u.scheme).isSome = true
  user : IsUser u.username u.password
  host : ∃ host, u.host = some host ∧ IsHost host.toList
  port : ∀ p ∈ u.port, p ≤ 65535 ∧ defaultPort? u.scheme ≠ some p
  path : ∃ segs, u.path = .rooted segs ∧ segs ≠ [] ∧ ∀ s ∈ segs, IsSegment s.toList
  query : ∀ q ∈ u.query, IsPlain specialQuerySet q.toList
  fragment : ∀ f ∈ u.fragment, IsPlain fragmentSet f.toList

theorem isSpecial_of_isSome {scheme : String} (h : (defaultPort? scheme).isSome = true) :
    isSpecial scheme = true ∧ scheme ≠ "file" := by
  refine ⟨by simp [isSpecial, h], ?_⟩
  rintro rfl
  exact absurd h (by decide)

/-- What is read with an authority is canonical. -/
theorem isCanonical_of_withAuthority? {scheme : String} {cs : List Char} {u : Uri}
    (hscheme : IsScheme scheme) (hweb : (defaultPort? scheme).isSome = true)
    (h : withAuthority? scheme cs = some u) : IsCanonical u := by
  obtain ⟨hspecial, -⟩ := isSpecial_of_isSome hweb
  unfold withAuthority? at h
  dsimp only at h
  rw [hspecial] at h
  split at h
  · next host port hhost hport =>
    rw [hostOf?, if_pos hspecial] at hhost
    -- a web address needs a host, and with one each part was escaped as it was read
    rw [Option.ite_none_left_eq_some] at h
    obtain ⟨-, h⟩ := h
    obtain ⟨hquery, hfragment⟩ := isPlain_of_splitTail (cs.span fun c => !endsAuthority true c).2
    cases h
    refine ⟨hscheme, hweb, ?_, ⟨host, rfl, isHost_of_specialHost? hhost⟩, of_port? hport,
      ⟨_, rfl, isSegment_of_mem_segments _⟩, hquery, hfragment⟩
    dsimp only
    split
    · exact isUser_user _
    · exact ⟨(fun c hc => nomatch hc), fun p hp => nomatch hp⟩
  · cases h

/-- The scheme of an address with an authority. -/
theorem scheme_of_withAuthority? {scheme : String} {cs : List Char} {u : Uri}
    (h : withAuthority? scheme cs = some u) : u.scheme = scheme := by
  unfold withAuthority? at h
  dsimp only at h
  split at h
  · rw [Option.ite_none_left_eq_some] at h
    cases h.2
    rfl
  · cases h

/-- An address has the scheme with which its text begins. -/
theorem scheme_of_parse? {s : String} {u : Uri} (h : parse? s = some u) :
    ∃ rest, scheme? (clean s) = some (u.scheme, rest) := by
  obtain ⟨⟨scheme, rest⟩, hscheme, hrest⟩ := Option.bind_eq_some_iff.mp h
  refine ⟨rest, ?_⟩
  rw [hscheme]
  dsimp only at hrest
  split at hrest
  · next hfile =>
    obtain ⟨host, -, rfl⟩ := Option.map_eq_some_iff.mp hrest
    rw [hfile]
  · split at hrest
    · rw [scheme_of_withAuthority? hrest]
    · split at hrest
      · rw [scheme_of_withAuthority? hrest]
      · cases hrest
        rfl

/-- **What is read is canonical**, under a scheme of the web. -/
theorem IsCanonical.of_parse? {s : String} {u : Uri} (h : parse? s = some u)
    (hweb : (defaultPort? u.scheme).isSome = true) : IsCanonical u := by
  obtain ⟨rest, hscheme⟩ := scheme_of_parse? h
  obtain ⟨hspecial, hfile⟩ := isSpecial_of_isSome hweb
  unfold parse? at h
  rw [hscheme, Option.bind_some] at h
  dsimp only at h
  rw [if_neg hfile, if_pos hspecial] at h
  exact isCanonical_of_withAuthority? (isScheme_of_scheme? hscheme) hweb h

/-- What stands between the slashes and the path of an address. -/
def placeChars (u : Uri) : List Char :=
  userChars u.username u.password ++ ((u.host.getD "").toList ++ portChars u.port)

theorem IsHost.ne_nil {cs : List Char} (h : IsHost cs) : cs ≠ [] := by
  cases h with
  | name hname _ => exact hname.nonempty
  | four _ => exact (isName_ipv4Chars _).nonempty
  | eight _ _ => exact List.cons_ne_nil _ _

theorem isDigit_of_mem_portChars {port : Option Nat} {c : Char} (h : c ∈ portChars port) :
    c ∈ ":0123456789".toList := by
  cases port with
  | none => cases h
  | some p =>
    rcases List.mem_cons.mp h with rfl | h
    · decide
    · exact List.mem_cons_of_mem _
        (mem_digits (Nat.isDigit_of_mem_toDigits (by decide) (by decide) h))

/-- The host and the port hold no at-sign, and nothing that ends them. -/
theorem IsHost.of_mem_append_portChars {host : List Char} (h : IsHost host) (port : Option Nat) :
    ∀ c ∈ host ++ portChars port, 0x20 < c.toNat ∧ endsAuthority true c = false ∧ c ≠ '@' := by
  have hport : ∀ c ∈ ":0123456789".toList,
      0x20 < c.toNat ∧ endsAuthority true c = false ∧ c ≠ '@' :=
    forall_mem_of_all (by decide)
  intro c hc
  rcases List.mem_append.mp hc with hc | hc
  · exact h.not_endsAuthority c hc
  · exact hport c (isDigit_of_mem_portChars hc)

theorem IsUser.of_mem_userChars {username : String} {password : Option String}
    (h : IsUser username password) :
    ∀ c ∈ userChars username password, 0x20 < c.toNat ∧ endsAuthority true c = false := by
  -- what ends the authority is escaped in a user; this is checked for all of ASCII
  have hplain : ∀ {cs}, IsPlain userSet cs → ∀ c ∈ cs,
      0x20 < c.toNat ∧ endsAuthority true c = false := by
    intro cs hcs c hc
    obtain ⟨hascii, hset⟩ := hcs c hc
    exact forall_ascii (P := fun c => userSet c = false →
      0x20 < c.toNat ∧ endsAuthority true c = false) (by decide +kernel) hascii hset
  have hmarks : ∀ c ∈ [':', '@'], 0x20 < c.toNat ∧ endsAuthority true c = false :=
    forall_mem_of_all (by decide)
  intro c hc
  unfold userChars at hc
  split at hc
  · next p =>
    simp only [List.mem_append, List.mem_cons, List.not_mem_nil, or_false] at hc
    rcases hc with (hc | rfl | hc) | rfl
    · exact hplain h.username c hc
    · exact hmarks _ (by simp)
    · exact hplain (h.password p rfl).2 c hc
    · exact hmarks _ (by simp)
  · split at hc
    · cases hc
    · rcases List.mem_append.mp hc with hc | hc
      · exact hplain h.username c hc
      · rw [List.mem_singleton.mp hc]
        exact hmarks _ (by simp)

theorem IsScheme.lt_toNat {scheme : String} (h : IsScheme scheme) :
    ∀ c ∈ scheme.toList, 0x20 < c.toNat := by
  have hchar : ∀ c, isSchemeChar c = true → 0x20 < c.toNat := fun c hc =>
    forall_ascii (P := fun c => isSchemeChar c = true → 0x20 < c.toNat) (by decide +kernel)
      (lt_of_isSchemeChar hc) hc
  obtain ⟨c, more, heq, halpha, hmore, -⟩ := h
  rw [heq]
  refine List.forall_mem_cons.mpr ⟨hchar c ?_, fun d hd => hchar d (hmore d hd)⟩
  simp [isSchemeChar, Char.isAlphanum, halpha]

theorem IsCanonical.placeChars_ne_nil {u : Uri} (h : IsCanonical u) : u.placeChars ≠ [] := by
  obtain ⟨host, hhost, hishost⟩ := h.host
  unfold placeChars
  rw [hhost]
  exact List.append_ne_nil_of_right_ne_nil _
    (List.append_ne_nil_of_left_ne_nil hishost.ne_nil _)

theorem IsCanonical.of_mem_placeChars {u : Uri} (h : IsCanonical u) :
    ∀ c ∈ u.placeChars, 0x20 < c.toNat ∧ endsAuthority true c = false := by
  obtain ⟨host, hhost, hishost⟩ := h.host
  unfold placeChars
  rw [hhost]
  intro c hc
  rcases List.mem_append.mp hc with hc | hc
  · exact h.user.of_mem_userChars c hc
  · obtain ⟨hlow, hends, -⟩ := hishost.of_mem_append_portChars u.port c hc
    exact ⟨hlow, hends⟩

/-- The address that has the place of another and something else behind it. -/
def withTail (u : Uri) (tail : List Char) : Uri :=
  { u with
    path := .rooted (segments true (splitTail true tail).1)
    query := (splitTail true tail).2.1
    fragment := (splitTail true tail).2.2 }

theorem IsCanonical.port?_eq {u : Uri} (h : IsCanonical u) :
    port? u.scheme (u.port.map (Nat.toDigits 10)) = some u.port := by
  cases hport : u.port with
  | none => rfl
  | some p =>
    obtain ⟨hle, hne⟩ := h.port p hport
    exact port?_toDigits hle hne

theorem IsCanonical.withAuthority?_place {u : Uri} (h : IsCanonical u) {tail : List Char}
    (hslash : ∀ c ∈ tail.head?, endsAuthority true c = true) :
    withAuthority? u.scheme (u.placeChars ++ tail) = some (u.withTail tail) := by
  obtain ⟨hspecial, -⟩ := isSpecial_of_isSome h.web
  obtain ⟨host, hhost, hishost⟩ := h.host
  have hplace : u.placeChars =
      userChars u.username u.password ++ (host.toList ++ portChars u.port) := by
    rw [placeChars, hhost]
    rfl
  have hspan : (u.placeChars ++ tail).span (fun c => !endsAuthority true c) =
      (u.placeChars, tail) := by
    refine span_append (fun c hc => ?_) fun c hc => ?_
    · rw [(h.of_mem_placeChars c hc).2]
      rfl
    · rw [hslash c hc]
      rfl
  have hat : '@' ∉ host.toList ++ portChars u.port := fun hmem =>
    (hishost.of_mem_append_portChars u.port '@' hmem).2.2 rfl
  have hnot : ¬ host = "" := by
    rintro rfl
    exact hishost.ne_nil rfl
  unfold withAuthority?
  dsimp only
  rw [hspecial, hspan, hplace]
  dsimp only
  -- with a user and without one, the rest is read alike
  obtain ⟨who, hwho, huser⟩ | ⟨hwho, hnone, husername, hpassword⟩ := h.user.splitLast?_userChars hat
  · rw [hwho]
    dsimp only
    rw [splitPort_append hishost, hostOf?, if_pos hspecial, hishost.specialHost?_eq, h.port?_eq,
      huser]
    dsimp only
    rw [String.ofList_toList, if_neg fun hempty => hnot hempty.1, withTail, hhost]
  · rw [hwho, hnone]
    dsimp only
    rw [List.nil_append, splitPort_append hishost, hostOf?, if_pos hspecial,
      hishost.specialHost?_eq, h.port?_eq]
    dsimp only
    rw [String.ofList_toList, if_neg fun hempty => hnot hempty.1, withTail, hhost, husername,
      hpassword]

/-- **Reading a canonical authority.**  Whatever stands behind it, the text of the authority is read
back, and the rest becomes the path, the query and the fragment. -/
theorem IsCanonical.parse?_place {u : Uri} (h : IsCanonical u) {tail : List Char} {s : String}
    (hs : s.toList = u.scheme.toList ++ ':' :: '/' :: '/' :: (u.placeChars ++ tail))
    (htail : ∀ c ∈ tail, 0x20 < c.toNat)
    (hslash : ∀ c ∈ tail.head?, endsAuthority true c = true) :
    parse? s = some (u.withTail tail) := by
  obtain ⟨hspecial, hfile⟩ := isSpecial_of_isSome h.web
  have hchars := h.of_mem_placeChars
  have hclean : clean s = s.toList := by
    refine clean_eq fun c hc => ?_
    rw [hs] at hc
    simp only [List.mem_append, List.mem_cons] at hc
    rcases hc with hc | rfl | rfl | rfl | hc | hc
    · exact h.scheme.lt_toNat c hc
    · decide
    · decide
    · decide
    · exact (hchars c hc).1
    · exact htail c hc
  -- no slash of the place is dropped with those in front of it
  have hdrop : ('/' :: '/' :: (u.placeChars ++ tail)).dropWhile
      (fun c => c = '/' || c = '\\') = u.placeChars ++ tail := by
    obtain ⟨c, cs, hcons⟩ := List.exists_cons_of_ne_nil h.placeChars_ne_nil
    have hends := (hchars c (hcons ▸ List.mem_cons_self)).2
    rw [List.dropWhile_cons_of_pos (by decide), List.dropWhile_cons_of_pos (by decide), hcons,
      List.cons_append]
    refine List.dropWhile_cons_of_neg ?_
    simp only [endsAuthority, Bool.or_eq_false_iff, Bool.true_and] at hends
    rw [hends.1.1.1, hends.2]
    decide
  unfold parse?
  rw [hclean, hs, scheme?_append h.scheme, Option.bind_some]
  dsimp only
  rw [if_neg hfile, if_pos hspecial, hdrop]
  exact h.withAuthority?_place hslash

/-! ## Round trip -/

/-- The text behind the authority of an address with these segments. -/
def tailChars (segs : List String) (u : Uri) : List Char :=
  pathChars segs ++ markedChars '?' u.query ++ markedChars '#' u.fragment

theorem IsCanonical.toList_render {u : Uri} (h : IsCanonical u) :
    ∃ segs, u.path = .rooted segs ∧ segs ≠ [] ∧ (∀ s ∈ segs, IsSegment s.toList) ∧
      u.render.toList =
        u.scheme.toList ++ ':' :: '/' :: '/' :: (u.placeChars ++ tailChars segs u) := by
  obtain ⟨host, hhost, -⟩ := h.host
  obtain ⟨segs, hpath, hne, hsegs⟩ := h.path
  refine ⟨segs, hpath, hne, hsegs, ?_⟩
  -- each part is written as its characters, with the marks that belong to it
  have hauthority : (u.authorityText true).toList = '/' :: '/' :: u.placeChars := by
    unfold authorityText placeChars userChars portChars
    rw [hhost]
    cases u.password with
    | some p => cases u.port <;> simp [Nat.repr]
    | none => by_cases hempty : u.username = "" <;> cases u.port <;> simp [hempty, Nat.repr]
  have htext : u.pathText.toList = pathChars segs := by
    unfold pathText
    rw [hpath, hhost]
    simp [pathChars, String.toList_join, List.flatMap_map]
  have hquery : u.queryText.toList = markedChars '?' u.query := by
    unfold queryText
    cases u.query with
    | none => rfl
    | some q => simp [markedChars]
  have hfragment : u.fragmentText.toList = markedChars '#' u.fragment := by
    unfold fragmentText
    cases u.fragment with
    | none => rfl
    | some f => simp [markedChars]
  unfold render tailChars
  simp [hauthority, htext, hquery, hfragment]

theorem head?_tailChars {segs : List String} (hne : segs ≠ []) (u : Uri) :
    ∀ c ∈ (tailChars segs u).head?, c = '/' := by
  unfold tailChars
  rw [pathChars_eq hne]
  rintro _ ⟨⟩
  rfl

theorem IsCanonical.of_mem_tailChars {u : Uri} (h : IsCanonical u) {segs : List String}
    (hsegs : ∀ s ∈ segs, IsSegment s.toList) : ∀ c ∈ tailChars segs u, 0x20 < c.toNat := by
  -- every set escapes what is an edge, so nothing plain is one
  have hplain : ∀ set : EscapeSet, (∀ n ≤ 0x20, set (Char.ofNat n) = true) → ∀ {cs},
      IsPlain set cs → ∀ c ∈ cs, 0x20 < c.toNat := by
    intro set hset cs hcs c hc
    by_contra hlow
    have hedge := hset c.toNat (Nat.le_of_not_lt hlow)
    rw [Char.ofNat_toNat, (hcs c hc).2] at hedge
    cases hedge
  have hmarked : ∀ (mark : Char) (part : Option String) (set : EscapeSet), 0x20 < mark.toNat →
      (∀ n ≤ 0x20, set (Char.ofNat n) = true) → (∀ t ∈ part, IsPlain set t.toList) →
      ∀ c ∈ markedChars mark part, 0x20 < c.toNat := by
    intro mark part set hmark hset hpart c hc
    cases part with
    | none => cases hc
    | some text =>
      rcases List.mem_cons.mp hc with rfl | hc
      · exact hmark
      · exact hplain set hset (hpart text rfl) c hc
  intro c hc
  rcases List.mem_append.mp hc with hc | hc
  · rcases List.mem_append.mp hc with hc | hc
    · obtain ⟨s, hs, hc⟩ := List.mem_flatMap.mp hc
      rcases List.mem_cons.mp hc with rfl | hc
      · decide
      · exact hplain pathSet (by decide) (hsegs s hs).plain c hc
    · exact hmarked '?' u.query specialQuerySet (by decide) (by decide) h.query c hc
  · exact hmarked '#' u.fragment fragmentSet (by decide) (by decide) h.fragment c hc

/-- **An address of the web is read back from its text.** -/
theorem IsCanonical.parse?_render {u : Uri} (h : IsCanonical u) : parse? u.render = some u := by
  obtain ⟨segs, hpath, hne, hsegs, hrender⟩ := h.toList_render
  -- no mark of the path can be taken for the start of the query or of the fragment
  have hmarks : ∀ c ∈ pathChars segs, c ≠ '?' ∧ c ≠ '#' := by
    intro c hc
    rcases of_mem_pathChars hsegs hc with rfl | ⟨-, hset, -⟩
    · decide
    · constructor
      · rintro rfl
        exact absurd hset (by decide)
      · rintro rfl
        exact absurd hset (by decide)
  have htail : splitTail true (tailChars segs u) = (pathChars segs, u.query, u.fragment) :=
    splitTail_append hmarks h.query h.fragment
  have hslash : ∀ c ∈ (tailChars segs u).head?, endsAuthority true c = true := by
    intro c hc
    rw [head?_tailChars hne u c hc]
    rfl
  rw [h.parse?_place hrender (h.of_mem_tailChars hsegs) hslash, withTail, htail,
    segments_pathChars hsegs hne, ← hpath]

end Coordination.Uri
