import Coordination.Proofs.Clock.Stamps
import Mathlib.Data.List.Pairwise
/-!
# Calls of one clock that overlap

Any number of calls ask one clock for a stamp.  A call reads the time of day, looks at the clock, and
puts the millisecond that it issues in the place of the one that it saw; if the clock has gone on
since, it looks again.  Only then does it make its stamp, from its time and the millisecond that it
replaced.  Between any two of these steps all others may happen.

Whatever the order of the steps, the calls have the stamps that calls one after another would have,
in the order in which they changed the clock.  So the stamps ascend in this order.
-/

namespace Coordination.Clock

/-! ## Calls one after another -/

def issues : Clock → List Nat → List Nat
  | _, [] => []
  | c, now :: later => c.issue now :: issues (c.advance now) later

def text (millis : Nat) : String := String.ofList (stampChars millis)

theorem stamps_eq_map_issues (c : Clock) (times : List Nat) :
    c.stamps times = (c.issues times).map text := by
  induction times generalizing c with
  | nil => rfl
  | cons now later ih =>
    rw [stamps, issues, List.map_cons, ih]
    rfl

theorem issues_concat (c : Clock) (times : List Nat) (now : Nat) :
    c.issues (times ++ [now]) = c.issues times ++ [(times.foldl advance c).issue now] := by
  induction times generalizing c with
  | nil => rfl
  | cons first later ih =>
    rw [List.cons_append, issues, ih]
    rfl

/-- What is issued is later than what was issued before. -/
theorem last_lt_of_mem_issues {c : Clock} {times : List Nat} {millis : Nat}
    (h : millis ∈ c.issues times) : c.last < millis := by
  induction times generalizing c with
  | nil => cases h
  | cons now later ih =>
    have hissue : c.last < c.issue now := Nat.lt_of_lt_of_le (Nat.lt_succ_self _) (Nat.le_max_right ..)
    rcases List.mem_cons.mp h with rfl | hlater
    · exact hissue
    · exact Nat.lt_trans hissue (ih hlater)

/-- **No millisecond is issued twice, and none after a later one**, whatever the times. -/
theorem issues_ascend (c : Clock) (times : List Nat) : (c.issues times).Pairwise (· < ·) := by
  induction times generalizing c with
  | nil => exact .nil
  | cons now later ih =>
    rw [issues, List.pairwise_cons]
    constructor
    · intro millis hmillis
      exact last_lt_of_mem_issues hmillis
    · exact ih (c.advance now)

/-- Up to the end of the year 9999 texts are in the order of the milliseconds. -/
theorem text_lt {m m' : Nat} (h : m < m') (hyear : Stamp.year m' ≤ 9999) : text m < text m' := by
  unfold text
  rw [String.lt_iff, String.toList_ofList, String.toList_ofList]
  exact Stamp.stampChars_lt h hyear

/-! ## Calls that overlap -/

/-- Where a call stands. -/
inductive Stage where
  /-- It has read the time of day, in milliseconds from 1970 on or before. -/
  | asked (now : Int)
  /-- It has seen a value of the clock. -/
  | looked (now : Int) (seen : Nat)
  /-- It has replaced a value of the clock. -/
  | changed (now : Int) (previous : Nat)
  /-- It has returned its stamp. -/
  | returned (stamp : String)
deriving DecidableEq

/-- The stamp of a call, from the moment on in which it is settled.  A time before 1970 counts for
nothing, as no clock is that late. -/
def Stage.stamp? : Stage → Option String
  | changed now previous => some (stamp ⟨previous⟩ now.toNat)
  | returned stamp => some stamp
  | _ => none

structure Change where
  /-- The call that made it. -/
  call : Nat
  /-- The time of day that the call had read. -/
  now : Int
  /-- What stood in the clock before. -/
  previous : Nat
deriving DecidableEq

/-- The millisecond that is issued with a change: the time, or the next one if the time is not later
than the clock. -/
def Change.millis (u : Change) : Nat := (max u.now (u.previous + 1)).toNat

theorem Change.millis_eq (u : Change) : u.millis = issue ⟨u.previous⟩ u.now.toNat := by
  unfold millis issue
  dsimp only
  omega

/-- A clock with the calls on it, in the order in which they began, and what they have done to it. -/
structure Traffic where
  clock : Clock
  calls : List Stage := []
  /-- The changes of the clock so far, in their order. -/
  changes : List Change := []

inductive Move where
  /-- A call begins by reading the time of day, which may be any. -/
  | ask (now : Int)
  /-- A call looks at the clock, for the first time or again. -/
  | look (call : Nat)
  /-- A call tries to change the clock. -/
  | exchange (call : Nat)
  /-- A call that has changed the clock makes its stamp and returns it. -/
  | finish (call : Nat)

namespace Traffic

/-- The traffic with a call at another stage. -/
def put (s : Traffic) (i : Nat) (stage : Stage) : Traffic :=
  { s with calls := s.calls.set i stage }

def act (s : Traffic) : Move → Traffic
  | .ask now => { s with calls := s.calls ++ [.asked now] }
  | .look i =>
    match s.calls[i]? with
    | some (.asked now) => s.put i (.looked now s.clock.last)
    | some (.looked now _) => s.put i (.looked now s.clock.last)
    | _ => s
  | .exchange i =>
    match s.calls[i]? with
    | some (.looked now seen) =>
      if seen = s.clock.last then
        { clock := s.clock.advance now.toNat
          calls := s.calls.set i (.changed now seen)
          changes := s.changes ++ [⟨i, now, seen⟩] }
      else s.put i (.looked now s.clock.last)
    | _ => s
  | .finish i =>
    match s.calls[i]? with
    | some (.changed now previous) => s.put i (.returned (stamp ⟨previous⟩ now.toNat))
    | _ => s

def run (c : Clock) (moves : List Move) : Traffic := moves.foldl act { clock := c }

def stamp? (s : Traffic) (i : Nat) : Option String := (s.calls[i]?).bind Stage.stamp?

/-- The times that the calls had read, in the order in which they changed the clock. -/
def times (s : Traffic) : List Nat := s.changes.map fun u => u.now.toNat

/-! ### Steps -/

/-- What a move does: a call begins, or gets ahead and keeps the stamp that it has or has not, or
changes the clock. -/
inductive Strides (s : Traffic) : Traffic → Prop where
  | rest : Strides s s
  | ask (now : Int) : Strides s { s with calls := s.calls ++ [.asked now] }
  | keep {i : Nat} {stage stage' : Stage} : s.calls[i]? = some stage →
      stage.stamp? = stage'.stamp? → Strides s (s.put i stage')
  | change {i : Nat} {now : Int} {stage : Stage} : s.calls[i]? = some stage →
      stage.stamp? = none →
      Strides s
        { clock := s.clock.advance now.toNat
          calls := s.calls.set i (.changed now s.clock.last)
          changes := s.changes ++ [⟨i, now, s.clock.last⟩] }

theorem strides_act (s : Traffic) (move : Move) : s.Strides (s.act move) := by
  cases move with
  | ask now => exact .ask now
  | look i =>
    dsimp only [act]
    split
    · next h => exact .keep h rfl
    · next h => exact .keep h rfl
    · exact .rest
  | exchange i =>
    dsimp only [act]
    split
    · next now seen h =>
      split
      · next hseen =>
        -- what the call saw is what it replaces
        subst hseen
        exact .change h rfl
      · exact .keep h rfl
    · exact .rest
  | finish i =>
    dsimp only [act]
    split
    · next h => exact .keep h rfl
    · exact .rest

theorem length_of_getElem? {s : Traffic} {i : Nat} {stage : Stage}
    (h : s.calls[i]? = some stage) : i < s.calls.length :=
  (List.getElem?_eq_some_iff.mp h).1

theorem stamp?_of_getElem? {s : Traffic} {i : Nat} {stage : Stage} (h : s.calls[i]? = some stage) :
    s.stamp? i = stage.stamp? := by
  unfold stamp?
  rw [h]
  rfl

/-- A call that has just begun has no stamp, and the others have theirs. -/
theorem stamp?_ask (s : Traffic) (now : Int) (i : Nat) :
    stamp? { s with calls := s.calls ++ [.asked now] } i = s.stamp? i := by
  unfold stamp?
  dsimp only
  by_cases hold : i < s.calls.length
  · rw [List.getElem?_append_left hold]
  · have hnone : s.calls[i]? = none := List.getElem?_eq_none (Nat.le_of_not_lt hold)
    rw [hnone, List.getElem?_append_right (Nat.le_of_not_lt hold)]
    cases i - s.calls.length with
    | zero => rfl
    | succ n => rfl

/-- A call at another stage has the stamp of this stage, and the others have theirs. -/
theorem stamp?_set (s : Traffic) (clock : Clock) (changes : List Change) {i : Nat} (stage : Stage)
    (h : i < s.calls.length) (j : Nat) :
    stamp? ⟨clock, s.calls.set i stage, changes⟩ j = if i = j then stage.stamp? else s.stamp? j := by
  unfold stamp?
  dsimp only
  rw [List.getElem?_set]
  by_cases hij : i = j
  · rw [if_pos hij, if_pos h, if_pos hij]
    rfl
  · rw [if_neg hij, if_neg hij]

/-! ### Runs -/

/-- The calls of a traffic could have come one after another on a clock. -/
structure InTurn (c : Clock) (s : Traffic) : Prop where
  clock_eq : s.clock = s.times.foldl advance c
  millis_eq : s.changes.map Change.millis = c.issues s.times
  stamp_eq : ∀ u ∈ s.changes, s.stamp? u.call = some (text u.millis)
  exists_change : ∀ i, (s.stamp? i).isSome = true → ∃ u ∈ s.changes, u.call = i

variable {c : Clock} {s s' : Traffic}

theorem inTurn_start (c : Clock) : InTurn c { clock := c } :=
  ⟨rfl, rfl, fun _ hu => (nomatch hu), fun _ hi => (nomatch hi)⟩

/-- Where no stamp and no change is different, the calls are in turn as before. -/
theorem InTurn.congr (h : InTurn c s) (hclock : s'.clock = s.clock)
    (hchanges : s'.changes = s.changes) (hstamp : ∀ i, s'.stamp? i = s.stamp? i) :
    InTurn c s' := by
  -- the readings are read off the changes, so that they are the same
  have htimes : s'.times = s.times := by
    unfold times
    rw [hchanges]
  constructor
  · rw [hclock, htimes]
    exact h.clock_eq
  · rw [hchanges, htimes]
    exact h.millis_eq
  · intro u hu
    rw [hstamp]
    exact h.stamp_eq u (hchanges ▸ hu)
  · intro i hi
    rw [hstamp] at hi
    rw [hchanges]
    exact h.exists_change i hi

/-- A change of the clock by a call without a stamp is the next one in turn. -/
theorem InTurn.change (h : InTurn c s) {i : Nat} (now : Int) {stage : Stage}
    (hi : s.calls[i]? = some stage) (hnone : stage.stamp? = none) :
    InTurn c
      { clock := s.clock.advance now.toNat
        calls := s.calls.set i (.changed now s.clock.last)
        changes := s.changes ++ [⟨i, now, s.clock.last⟩] } := by
  have hlength := length_of_getElem? hi
  have hmillis : Change.millis ⟨i, now, s.clock.last⟩ = s.clock.issue now.toNat :=
    Change.millis_eq _
  have htimes : times
      { clock := s.clock.advance now.toNat
        calls := s.calls.set i (.changed now s.clock.last)
        changes := s.changes ++ [⟨i, now, s.clock.last⟩] } = s.times ++ [now.toNat] :=
    List.map_append
  -- the clock has advanced once more, and the call that did it has no stamp until now
  constructor
  · rw [htimes, List.foldl_append, ← h.clock_eq]
    rfl
  · rw [htimes, List.map_append, List.map_singleton, issues_concat, h.millis_eq, hmillis,
      ← h.clock_eq]
  · intro u hu
    rw [stamp?_set s _ _ _ hlength]
    rcases List.mem_append.mp hu with hold | hnew
    · -- the call had no stamp before, so it made none of the changes before
      have hstamp := h.stamp_eq u hold
      have hne : i ≠ u.call := by
        intro heq
        rw [← heq, stamp?_of_getElem? hi, hnone] at hstamp
        cases hstamp
      rw [if_neg hne]
      exact hstamp
    · rw [List.mem_singleton.mp hnew, if_pos rfl, hmillis]
      rfl
  · intro j hj
    rw [stamp?_set s _ _ _ hlength] at hj
    by_cases hij : i = j
    · exact ⟨_, List.mem_append_right _ (List.mem_singleton_self _), hij⟩
    · rw [if_neg hij] at hj
      obtain ⟨u, hu, hcall⟩ := h.exists_change j hj
      exact ⟨u, List.mem_append_left _ hu, hcall⟩

/-- **A step keeps the calls in turn.** -/
theorem InTurn.strides (h : InTurn c s) (hs : s.Strides s') : InTurn c s' := by
  cases hs with
  | rest => exact h
  | ask now => exact h.congr rfl rfl (stamp?_ask s now)
  | keep hi hstage =>
    refine h.congr rfl rfl fun j => ?_
    unfold put
    rw [stamp?_set s _ _ _ (length_of_getElem? hi)]
    split
    · next hij => rw [← hij, stamp?_of_getElem? hi, hstage]
    · rfl
  | change hi hnone => exact h.change _ hi hnone

/-- **Whatever the order of the steps, the calls are in turn.** -/
theorem inTurn_run (c : Clock) (moves : List Move) : InTurn c (run c moves) := by
  have hfrom : ∀ s, InTurn c s → InTurn c (moves.foldl act s) := by
    induction moves with
    | nil => exact fun s hs => hs
    | cons move moves ih => exact fun s hs => ih _ (hs.strides (strides_act s move))
  exact hfrom _ (inTurn_start c)

/-! ### Stamps in the order of the changes -/

theorem InTurn.millis_ascend (h : InTurn c s) :
    s.changes.Pairwise fun u v => u.millis < v.millis := by
  have hascend := issues_ascend c s.times
  rw [← h.millis_eq] at hascend
  exact List.pairwise_map.mp hascend

/-- Two changes that are not the same issue different milliseconds. -/
theorem InTurn.millis_ne (h : InTurn c s) {u v : Change} (hu : u ∈ s.changes) (hv : v ∈ s.changes)
    (hne : u ≠ v) : u.millis ≠ v.millis := by
  have hdiffer : s.changes.Pairwise fun u v => u.millis ≠ v.millis :=
    h.millis_ascend.imp fun hlt => Nat.ne_of_lt hlt
  have : Std.Symm fun u v : Change => u.millis ≠ v.millis := ⟨fun _ _ hne => hne.symm⟩
  exact hdiffer.forall hu hv hne

/-- A stamp that was returned is that of the millisecond issued with the change. -/
theorem InTurn.returned_eq (h : InTurn c s) {u : Change} (hu : u ∈ s.changes) {a : String}
    (ha : s.calls[u.call]? = some (.returned a)) : a = text u.millis := by
  have hstamp := h.stamp_eq u hu
  rw [stamp?_of_getElem? ha] at hstamp
  exact Option.some.inj hstamp

/-- Who has returned a stamp has changed the clock. -/
theorem InTurn.change_of_returned (h : InTurn c s) {i : Nat} {a : String}
    (ha : s.calls[i]? = some (.returned a)) : ∃ u ∈ s.changes, u.call = i := by
  apply h.exists_change
  rw [stamp?_of_getElem? ha]
  rfl

/-- **Stamps ascend as texts.**  Whatever the times that calls read, and in whatever order their
steps come, as long as no millisecond is issued beyond the year 9999: the stamps are those that the
clock gives to calls one after another, in the order in which the calls change it; of two stamps that
were returned the one of the earlier change comes first as text; every call that has returned has
changed the clock; and no two calls return the same stamp. -/
theorem stamps_ascend (c : Clock) (moves : List Move)
    (hyears : ∀ u ∈ (run c moves).changes, Stamp.year u.millis ≤ 9999) :
    let s := run c moves
    (s.changes.map fun u => s.stamp? u.call) = (c.stamps s.times).map some ∧
    (s.changes.Pairwise fun u v => ∀ a b, s.calls[u.call]? = some (Stage.returned a) →
      s.calls[v.call]? = some (Stage.returned b) → a < b) ∧
    (∀ (i : Nat) (a : String), s.calls[i]? = some (Stage.returned a) → ∃ u ∈ s.changes, u.call = i) ∧
    ∀ (i j : Nat) (a b : String), i ≠ j → s.calls[i]? = some (Stage.returned a) →
      s.calls[j]? = some (Stage.returned b) → a ≠ b := by
  intro s
  have hturn : InTurn c s := inTurn_run c moves
  refine ⟨?_, ?_, ?_, ?_⟩
  · rw [stamps_eq_map_issues, ← hturn.millis_eq, List.map_map, List.map_map]
    exact List.map_congr_left fun u hu => hturn.stamp_eq u hu
  · refine hturn.millis_ascend.imp_of_mem fun {u v} hu hv hlt a b ha hb => ?_
    rw [hturn.returned_eq hu ha, hturn.returned_eq hv hb]
    exact text_lt hlt (hyears v hv)
  · intro i a ha
    exact hturn.change_of_returned ha
  · intro i j a b hij ha hb
    obtain ⟨u, hu, rfl⟩ := hturn.change_of_returned ha
    obtain ⟨v, hv, rfl⟩ := hturn.change_of_returned hb
    have hne : u.millis ≠ v.millis := hturn.millis_ne hu hv fun heq => hij (congrArg Change.call heq)
    rw [hturn.returned_eq hu ha, hturn.returned_eq hv hb]
    -- one of the two was issued first
    rcases Nat.lt_or_gt_of_ne hne with hlt | hgt
    · exact String.ne_of_lt (text_lt hlt (hyears v hv))
    · exact (String.ne_of_lt (text_lt hgt (hyears u hu))).symm

/-- The first call reads a later time than the second one, which sees the clock before the first
changes it and so has to look again; the second call has the later stamp, and returns first. -/
theorem stamps_ascend_clock_set_back :
    let moves := [Move.ask 7, .ask (-3), .look 0, .look 1, .exchange 0, .exchange 1, .exchange 1,
      .finish 1, .finish 0]
    let s := run {} moves
    (∀ u ∈ s.changes, Stamp.year u.millis ≤ 9999) ∧
      s.calls = [.returned "1970-01-01T00:00:00.007Z", .returned "1970-01-01T00:00:00.008Z"] ∧
      "1970-01-01T00:00:00.007Z" < "1970-01-01T00:00:00.008Z" := by
  intro moves s
  have hchanges : s.changes = [⟨0, 7, 0⟩, ⟨1, -3, 7⟩] := by decide +kernel
  have hcalls : s.calls =
      [.returned "1970-01-01T00:00:00.007Z", .returned "1970-01-01T00:00:00.008Z"] := by
    decide +kernel
  have hyears : ∀ u ∈ s.changes, Stamp.year u.millis ≤ 9999 := by decide +kernel
  obtain ⟨-, hascend, -, -⟩ := stamps_ascend {} moves hyears
  rw [show (run {} moves).changes = _ from hchanges] at hascend
  have hpair := (List.pairwise_cons.mp hascend).1 ⟨1, -3, 7⟩ (List.mem_singleton_self _)
  refine ⟨hyears, hcalls, hpair _ _ ?_ ?_⟩
  · exact congrArg (fun calls => calls[0]?) hcalls
  · exact congrArg (fun calls => calls[1]?) hcalls

end Traffic

end Coordination.Clock
