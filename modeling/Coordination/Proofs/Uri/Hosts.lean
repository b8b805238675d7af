import Coordination.Discovery
import Mathlib.Data.List.Basic
/-!
# The host of an address is one segment

Whatever a web address looks like, its host holds no slash: a slash ends the part of the address in
which the host stands, and neither unescaping, nor the mapping of names, nor the canonical text of
an address of numbers brings one in.  So the id of an authority, which is the host of its public
address, is always one segment of a topic.
-/

namespace Coordination

/-! ## Characters -/

namespace Text

/-- Pieces without a slash that are joined by another character hold no slash. -/
theorem slash_not_mem_joinChars {sep : Char} (hsep : sep ≠ '/') {pieces : List (List Char)}
    (h : ∀ piece ∈ pieces, '/' ∉ piece) : '/' ∉ joinChars sep pieces := by
  induction pieces with
  | nil => exact List.not_mem_nil
  | cons piece pieces ih =>
    obtain ⟨hpiece, hpieces⟩ := List.forall_mem_cons.mp h
    cases pieces with
    | nil => exact hpiece
    | cons next rest =>
      rw [joinChars_cons (List.cons_ne_nil next rest), List.mem_append, List.mem_cons]
      rintro (hmem | heq | hmem)
      · exact hpiece hmem
      · exact hsep heq.symm
      · exact ih hpieces hmem

/-- No hexadecimal digit is a slash. -/
theorem Hex.digit_ne_slash : ∀ n < 16, Hex.lowerDigit n ≠ '/' ∧ Hex.upperDigit n ≠ '/' := by
  decide

theorem Hex.slash_not_mem_lowerDigits (n : Nat) : '/' ∉ Hex.lowerDigits n := by
  -- the digits of a number are those of its sixteenth and one more
  induction n using Nat.strongRecOn with
  | _ n ih =>
    unfold Hex.lowerDigits
    split
    · next hsmall =>
      rw [List.mem_singleton]
      exact (Hex.digit_ne_slash n hsmall).1.symm
    · next hlarge =>
      rw [List.mem_append, List.mem_singleton]
      rintro (hmem | heq)
      · exact ih (n / 16) (by omega) hmem
      · exact (Hex.digit_ne_slash (n % 16) (Nat.mod_lt n (by omega))).1 heq.symm

end Text

namespace Uri

/-- Escaping brings no slash in. -/
theorem slash_not_mem_escapeChars {set : EscapeSet} {cs : List Char} (h : '/' ∉ cs) :
    '/' ∉ escapeChars set cs := by
  -- an escaped byte is a percent sign and two hexadecimal digits
  have hbyte : ∀ b, '/' ∉ escapeByte b := by
    intro b
    have hb := b.toNat_lt
    have hhigh := (Text.Hex.digit_ne_slash (b.toNat / 16) (by omega)).2
    have hlow := (Text.Hex.digit_ne_slash (b.toNat % 16) (Nat.mod_lt _ (by omega))).2
    simp [escapeByte, hhigh.symm, hlow.symm]
  unfold escapeChars
  rw [List.mem_flatMap]
  rintro ⟨c, hc, hmem⟩
  unfold escapeChar at hmem
  split at hmem
  · rw [List.mem_singleton] at hmem
    exact h (hmem ▸ hc)
  · obtain ⟨b, -, hb⟩ := List.mem_flatMap.mp hmem
    exact hbyte b hb

/-! ## Hosts -/

theorem slash_not_mem_ipv4Chars (n : Nat) : '/' ∉ ipv4Chars n := by
  refine Text.slash_not_mem_joinChars (by decide) fun piece hpiece hmem => ?_
  obtain ⟨part, -, rfl⟩ := List.mem_map.mp hpiece
  have hdigit := Nat.isDigit_of_mem_toDigits (by omega) (by omega) hmem
  exact absurd hdigit (by decide)

theorem slash_not_mem_ipv6Chars (gs : List Nat) : '/' ∉ ipv6Chars gs := by
  have hwrite : ∀ gs : List Nat, '/' ∉ Text.joinChars ':' (gs.map Text.Hex.lowerDigits) := by
    intro gs
    refine Text.slash_not_mem_joinChars (by decide) fun piece hpiece => ?_
    obtain ⟨g, -, rfl⟩ := List.mem_map.mp hpiece
    exact Text.Hex.slash_not_mem_lowerDigits g
  unfold ipv6Chars
  dsimp only
  -- a run of zeros that is long enough splits the groups in two
  split
  · simp [hwrite gs]
  · simp [hwrite (gs.take _), hwrite (gs.drop _), -List.map_take, -List.map_drop]

theorem slash_not_mem_of_bracketed? {cs : List Char} {host : String}
    (h : bracketed? cs = some host) : '/' ∉ host.toList := by
  unfold bracketed? at h
  split at h
  · split at h
    · obtain ⟨gs, -, rfl⟩ := Option.map_eq_some_iff.mp h
      rw [String.toList_ofList]
      exact slash_not_mem_ipv6Chars gs
    · cases h
  · cases h

theorem slash_not_mem_of_specialHost? {cs : List Char} {host : String}
    (h : specialHost? cs = some host) : '/' ∉ host.toList := by
  unfold specialHost? at h
  split at h
  · exact slash_not_mem_of_bracketed? h
  · obtain ⟨name, -, hname⟩ := Option.bind_eq_some_iff.mp h
    dsimp only at hname
    split at hname
    · cases hname
    · next hallowed =>
      split at hname
      · obtain ⟨n, -, rfl⟩ := Option.map_eq_some_iff.mp hname
        rw [String.toList_ofList]
        exact slash_not_mem_ipv4Chars n
      · cases hname
        rw [String.toList_ofList]
        -- a name with a slash is forbidden
        intro hmem
        exact hallowed (.inr (List.any_eq_true.mpr ⟨'/', hmem, by decide⟩))

theorem slash_not_mem_of_plainHost? {cs : List Char} {host : String}
    (h : plainHost? cs = some host) : '/' ∉ host.toList := by
  unfold plainHost? at h
  split at h
  · exact slash_not_mem_of_bracketed? h
  · split at h
    · cases h
    · next hallowed =>
      cases h
      rw [String.toList_ofList]
      refine slash_not_mem_escapeChars fun hmem => ?_
      exact hallowed (List.any_eq_true.mpr ⟨'/', hmem, by decide⟩)

theorem slash_not_mem_of_hostOf? {scheme : String} {cs : List Char} {host : String}
    (h : hostOf? scheme cs = some host) : '/' ∉ host.toList := by
  unfold hostOf? at h
  split at h
  · exact slash_not_mem_of_specialHost? h
  · exact slash_not_mem_of_plainHost? h

/-! ## Addresses -/

theorem slash_not_mem_of_withAuthority? {scheme : String} {cs : List Char} {u : Uri}
    (h : withAuthority? scheme cs = some u) : ∀ host ∈ u.host, '/' ∉ host.toList := by
  unfold withAuthority? at h
  dsimp only at h
  split at h
  · next host _ hhost _ =>
    have hclean := slash_not_mem_of_hostOf? hhost
    -- with a user and without one, the host is read alike
    split at h
    all_goals
      split at h
      · cases h
      · cases h
        rintro _ ⟨⟩
        exact hclean
  · cases h

theorem slash_not_mem_of_ofFile? {cs : List Char} {u : Uri} (h : ofFile? cs = some u) :
    ∀ host ∈ u.host, '/' ∉ host.toList := by
  unfold ofFile? at h
  dsimp only at h
  obtain ⟨name, hname, rfl⟩ := Option.map_eq_some_iff.mp h
  rintro _ ⟨⟩
  have hclean : '/' ∉ name.toList := by
    by_cases hempty : name = ""
    · simp [hempty]
    · rw [ite_eq_iff] at hname
      obtain ⟨-, hname⟩ | ⟨-, hname⟩ := hname
      · exact absurd (Option.some.inj hname).symm hempty
      · exact slash_not_mem_of_specialHost? hname
  -- the name of the machine itself is left out
  split
  · simp
  · exact hclean

/-- **No host holds a slash.** -/
theorem slash_not_mem_of_parse? {s : String} {u : Uri} (h : parse? s = some u) :
    ∀ host ∈ u.host, '/' ∉ host.toList := by
  obtain ⟨⟨scheme, rest⟩, -, hrest⟩ := Option.bind_eq_some_iff.mp h
  dsimp only at hrest
  split at hrest
  · exact slash_not_mem_of_ofFile? hrest
  · split at hrest
    · exact slash_not_mem_of_withAuthority? hrest
    · split at hrest
      · exact slash_not_mem_of_withAuthority? hrest
      · -- without an authority there is no host
        cases hrest
        rintro _ ⟨⟩

end Uri

namespace Discovery

/-- What a new search holds: the addresses as they are read, the broker if it is not empty, and no
endpoints. -/
theorem of_create {config : DiscoveryConfig} {d : Discovery} (h : create config = .ok d) :
    Uri.parse? config.authorityUri = some d.authorityUri ∧
      d.authorityUri.hostName? = some d.id ∧ d.internalUri = config.internalUri.bind Uri.parse? ∧
      d.brokerOverride = config.brokerUri.filter (· ≠ "") ∧
      d.backoff = .withMax config.maxBackoff ∧ d.endpoints = none := by
  unfold create at h
  -- each step of the creation either fails or gives one of the parts
  cases hparse : Uri.parse? config.authorityUri with
  | none =>
    simp only [parseUri, hparse] at h
    cases h
  | some u =>
    simp only [parseUri, hparse, bind, Except.bind] at h
    cases hhost : u.hostName? with
    | none =>
      simp only [hhost] at h
      cases h
    | some id =>
      simp only [hhost] at h
      split at h
      · next text htext =>
        cases hinternal : Uri.parse? text with
        | none =>
          simp only [hinternal] at h
          cases h
        | some internal =>
          simp only [hinternal] at h
          cases h
          refine ⟨rfl, hhost, ?_, rfl, rfl, rfl⟩
          rw [htext, Option.bind_some, hinternal]
      · next hnone =>
        cases h
        refine ⟨rfl, hhost, ?_, rfl, rfl, rfl⟩
        rw [hnone, Option.bind_none]

/-- The id of an authority is one segment, and not empty. -/
theorem id_of_create {config : DiscoveryConfig} {d : Discovery} (h : create config = .ok d) :
    d.id ≠ "" ∧ '/' ∉ d.id.toList := by
  obtain ⟨hparse, hid, -⟩ := of_create h
  obtain ⟨hmem, hne⟩ := Option.filter_eq_some_iff.mp hid
  exact ⟨of_decide_eq_true hne, Uri.slash_not_mem_of_parse? hparse d.id hmem⟩

end Discovery

end Coordination
