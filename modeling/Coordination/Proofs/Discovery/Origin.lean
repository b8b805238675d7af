import Coordination.Discovery
import Coordination.Proofs.Uri.RoundTrip
/-!
# Endpoints at another origin

An endpoint that is reached through another address keeps everything but its host and its port.
Whether the port is the one of the other address depends on the schemes: a usual port is not part of
an address, so that what is carried over is no port at all, and the endpoint falls back on the usual
port of its own scheme.
-/

namespace Coordination

namespace Uri

theorem isSome_defaultPort? {scheme : String} (h : scheme = "http" ∨ scheme = "https") :
    (defaultPort? scheme).isSome = true := by
  rcases h with rfl | rfl
  · decide
  · decide

theorem IsCanonical.hostName?_isSome {u : Uri} (h : IsCanonical u) : u.hostName?.isSome = true := by
  obtain ⟨host, hhost, hishost⟩ := h.host
  have hne : host ≠ "" := by
    rintro rfl
    exact hishost.ne_nil rfl
  simp [hostName?, hhost, hne]

/-- An address at the host and the port of another, as it is kept: without its usual port. -/
def atOrigin (u other : Uri) : Uri :=
  { u with
    host := other.host
    port := if other.port = defaultPort? u.scheme then none else other.port }

/-- The port that is used is the one that is written in the other address, otherwise the usual one
of the scheme that was kept. -/
theorem effectivePort?_atOrigin (u other : Uri) :
    (u.atOrigin other).effectivePort? = other.port.or (defaultPort? u.scheme) := by
  unfold effectivePort? atOrigin
  dsimp only
  split
  · next hport => rw [hport, Option.none_or, Option.or_self]
  · rfl

/-- The origin of one canonical address can be given to another, and nothing else changes. -/
theorem IsCanonical.withOriginOf? {u other : Uri} (hu : IsCanonical u)
    (hother : IsCanonical other) : u.withOriginOf? other = some (u.atOrigin other) := by
  obtain ⟨hspecial, hfile⟩ := isSpecial_of_isSome hu.web
  obtain ⟨host, hhost, hishost⟩ := hother.host
  obtain ⟨segs, hpath, -⟩ := hu.path
  have hne : host ≠ "" := by
    rintro rfl
    exact hishost.ne_nil rfl
  -- the host is canonical already, so that taking it over parses to itself
  have hwith : u.withHost? host = some { u with host := some host } := by
    unfold withHost?
    rw [hpath]
    dsimp only
    rw [if_neg fun hempty => hne hempty.1, hostOf?, if_pos hspecial, hishost.specialHost?_eq,
      Option.map_some, String.ofList_toList]
  unfold Uri.withOriginOf? atOrigin
  rw [hhost, Option.bind_some, hwith, Option.bind_some, withPort?, if_neg]
  simp [hostName?, hne, hfile]

theorem IsCanonical.atOrigin {u other : Uri} (hu : IsCanonical u) (hother : IsCanonical other) :
    IsCanonical (u.atOrigin other) where
  scheme := hu.scheme
  web := hu.web
  user := hu.user
  host := hother.host
  port := by
    intro p hp
    obtain ⟨hne, hport⟩ := Option.ite_none_left_eq_some.mp hp
    exact ⟨(hother.port p hport).1, fun hdefault => hne (hport.trans hdefault.symm)⟩
  path := hu.path
  query := hu.query
  fragment := hu.fragment

end Uri

namespace Discovery

open Uri

/-- **An endpoint through another address.**  Between addresses of the web, whichever ports they
write, the rewriting succeeds and gives the text of the endpoint with the host and the port of the
other address; its scheme, path, query and all else are kept.  The port at which it is reached is
the one that is written in the other address, if one is, and otherwise the usual port of the
endpoint's own scheme; so it is the port of the other address exactly if that is written out or
both schemes are the same. -/
theorem endpointThrough_origin {endpoint address : String} {u internal : Uri}
    (hendpoint : parse? endpoint = some u) (haddress : parse? address = some internal)
    (hscheme : u.scheme = "http" ∨ u.scheme = "https")
    (hinternal : internal.scheme = "http" ∨ internal.scheme = "https") :
    ∃ text v, endpointThrough endpoint internal = .ok text ∧ parse? text = some v ∧
      v = { u with host := internal.host, port := v.port } ∧ v.hostName?.isSome = true ∧
      v.effectivePort? = internal.port.or (defaultPort? u.scheme) ∧
      (v.effectivePort? = internal.effectivePort? ↔
        internal.port.isSome = true ∨ u.scheme = internal.scheme) := by
  have hu : IsCanonical u := .of_parse? hendpoint (isSome_defaultPort? hscheme)
  have hother : IsCanonical internal := .of_parse? haddress (isSome_defaultPort? hinternal)
  have hv : IsCanonical (u.atOrigin internal) := hu.atOrigin hother
  refine ⟨(u.atOrigin internal).render, u.atOrigin internal, ?_, hv.parse?_render, rfl,
    hv.hostName?_isSome, effectivePort?_atOrigin u internal, ?_⟩
  · unfold endpointThrough
    rw [hendpoint]
    dsimp only
    rw [hu.withOriginOf? hother]
  · rw [effectivePort?_atOrigin, effectivePort?]
    cases internal.port with
    | some p => simp
    | none =>
      -- the usual ports of the two schemes differ
      have hhttp : defaultPort? "http" = some 80 := by decide
      have hhttps : defaultPort? "https" = some 443 := by decide
      rcases hscheme with hs | hs <;> rcases hinternal with hi | hi <;>
        simp [hs, hi, hhttp, hhttps]

/-- An endpoint with a port of its own, reached at the usual port of the same scheme. -/
theorem endpointThrough_origin_same_scheme :
    ∃ text v internal,
      endpointThrough "https://auth.example.com:8443/connect/token?x=1" internal = .ok text ∧
      parse? "https://authority" = some internal ∧ parse? text = some v ∧
      v.effectivePort? = some 443 ∧ v.effectivePort? = internal.effectivePort? := by
  have hendpoint : parse? "https://auth.example.com:8443/connect/token?x=1" = some
      { scheme := "https", host := some "auth.example.com", port := some 8443,
        path := .rooted ["connect", "token"], query := some "x=1" } := by
    decide +kernel
  have haddress : parse? "https://authority" = some
      { scheme := "https", host := some "authority", path := .rooted [""] } := by
    decide +kernel
  obtain ⟨text, v, htext, hv, -, -, hport, hsame⟩ :=
    endpointThrough_origin hendpoint haddress (.inr rfl) (.inr rfl)
  refine ⟨text, v, _, htext, haddress, hv, ?_, hsame.mpr (.inr rfl)⟩
  rw [hport]
  decide

/-- An endpoint under another scheme is not reached at the port of the authority: where that is the
usual port of plain requests, the endpoint is asked at the usual port of encrypted ones. -/
theorem endpointThrough_misses_port :
    ∃ text v internal,
      endpointThrough "https://auth.example.com/connect/token" internal = .ok text ∧
      parse? "http://authority" = some internal ∧ text = "https://authority/connect/token" ∧
      parse? text = some v ∧ v.effectivePort? = some 443 ∧ internal.effectivePort? = some 80 := by
  refine ⟨_, { scheme := "https", host := some "authority", path := .rooted ["connect", "token"] },
    { scheme := "http", host := some "authority", path := .rooted [""] }, ?_, ?_, rfl, ?_, ?_, ?_⟩
  all_goals decide +kernel

end Discovery

end Coordination
