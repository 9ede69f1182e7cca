import Mathlib.Algebra.Order.Floor.Semiring
import Mathlib.Data.Rat.Floor
import VisualNovel.Proofs.Dialogue.Reading
/-!
# The pace of a reveal

A line that is revealed without a skip shows its first character at once and one more for each
interval that has gone by. How the time is cut into updates makes no difference: a task that is
resumed late goes on from when it was due, and an update resumes it as often as it is due
(`Reads.runs`). If the interval is not positive, each update shows one character.

A character may be early by the tolerance of the scheduler. The tolerance is granted in updates; so
an interval that is shorter than it counts for nothing until the first of them
(`tiny_interval_waits_for_an_update`).

Results:
* `reveal_keeps_pace`: how many characters are shown, what has been called, and whether the line is
  complete, by the time that has gone by or the number of updates.
-/
namespace VisualNovel
namespace Recital
open Dialogue (Reciter)

variable {interval : Rat} {sound : Json} {text : String} {after : Option (List String)}
  {id : TaskId} {due : Rat} {tick n : Nat} {before : List RecitalMark} {d : Recital Rat}

/-! ## Intervals that take time -/

/-- Where a line stands that was begun at a time: it is being read, and the last character is not
too early, or it is complete. If it is settled, nothing is due any more. -/
inductive Paced (interval : Rat) (sound : Json) (text : String) (after : Option (List String))
    (id : TaskId) (before : List RecitalMark) (began : Rat) (settled : Prop) (d : Recital Rat) : Prop
  | reading {n tick : Nat}
    (reads : Reads sound text after id before (began + n * interval) tick n d)
    (le : n ≤ text.length) (soon : tick ≤ d.scheduler.tick)
    (shown : began + (n - 1) * interval ≤ latest d)
    (waits : settled → latest d < began + n * interval)
  | complete (read : HasRead sound after before text.length d)
    (late : began + text.length * interval ≤ latest d)

/-- A task is resumed as often as it is due, each time from when it was due. -/
theorem Reads.runs {began : Rat} (hpos : 0 < interval)
    (hafter : ∀ wake, after = some wake → wake = []) {fuel : Nat} (hfuel : text.length < n + fuel)
    (hn : n ≤ text.length) (h : Reads sound text after id before (began + n * interval) tick n d)
    (htick : tick ≤ d.scheduler.tick) (hshown : began + (n - 1) * interval ≤ latest d) :
    ∃ d', (Dialogue.host stage).runDue (run (manner interval sound)) id fuel d = (d', none) ∧
      SameClock d d' ∧ Paced interval sound text after id before began True d' := by
  induction fuel generalizing n tick d with
  | zero => omega
  | succ fuel ih =>
    by_cases hdue : began + n * interval ≤ latest d
    · by_cases hlast : n = text.length
      · obtain ⟨d', hresume, hread, hclock⟩ := h.last interval hlast hafter
        refine ⟨d', h.runDue_once hdue htick hresume (hread.quiet id) fuel, hclock,
          .complete (hlast ▸ hread) ?_⟩
        rw [latest, hclock.1, ← hlast]
        exact hdue
      · obtain ⟨d', hresume, hnext, hclock⟩ := h.next interval (Nat.lt_of_le_of_ne hn hlast)
        have hwake : began + n * interval + interval = began + ↑(n + 1) * interval := by
          push_cast
          ring
        rw [hwake] at hnext
        obtain ⟨d'', hrun, hclock', hpaced⟩ := ih (by omega) (by omega) hnext
          (by rw [hclock.2]; simp [Request.wakeTick, Clock.lt, Clock.zero, hpos]) (by
            rw [latest, hclock.1]
            push_cast
            rw [add_sub_cancel_right]
            exact hdue)
        exact ⟨d'', by rw [h.runDue hdue htick, hresume, Attempt.andThen_none, hrun],
          ⟨hclock'.1.trans hclock.1, hclock'.2.trans hclock.2⟩, hpaced⟩
    · rw [not_le] at hdue
      exact ⟨d, Host.Conduct.runDue_unripe _ _ (h.quiet (.inl hdue) id) _, ⟨rfl, rfl⟩,
        .reading h hn htick hshown fun _ => hdue⟩

namespace Paced
variable {began : Rat} {settled settled' : Prop}

theorem weaken (h : Paced interval sound text after id before began settled d)
    (himp : settled' → settled) : Paced interval sound text after id before began settled' d := by
  cases h with
  | reading reads le soon shown waits => exact .reading reads le soon shown fun hs => waits (himp hs)
  | complete read late => exact .complete read late

theorem swept (h : Paced interval sound text after id before began settled d) :
    Paced interval sound text after id before began settled ((Dialogue.host stage).sweep d) := by
  cases h with
  | reading reads le soon shown waits => exact .reading reads.swept le soon shown waits
  | complete read late => exact .complete read.swept late

/-- Behind an update the line stands where it should by then. -/
theorem update (h : Paced interval sound text after id before began settled d) (hpos : 0 < interval)
    (hafter : ∀ wake, after = some wake → wake = []) {dt : Rat} (hdt : 0 ≤ dt) :
    ∃ d', Recital.update (manner interval sound) dt d = (d', none) ∧
      d'.scheduler.time = d.scheduler.time + dt ∧
      Paced interval sound text after id before began True d' := by
  have hlatest : latest d ≤ latest (Recital.advanced dt d) := by
    show d.scheduler.time + _ ≤ d.scheduler.time + dt + _
    linarith
  cases h with
  | @reading n tick reads le soon shown waits =>
    have hfuel : text.length < n + (text.length + 2) := by omega
    obtain ⟨d', hserve, hclock, hpaced⟩ := (reads.advanced dt).runs hpos hafter hfuel le
      (Nat.le_succ_of_le soon) (shown.trans hlatest)
    have hquiet : ∀ j t, d'.scheduler.task? j = some t → ¬d'.scheduler.Ripe t := by
      cases hpaced with
      | reading reads le soon shown waits => exact reads.quiet (.inl (waits trivial))
      | complete read late => exact read.quiet
    exact ⟨_, reads.update hserve hquiet, hclock.1, hpaced.swept⟩
  | complete read late =>
    exact ⟨_, read.update dt, rfl, .complete (read.advanced dt).swept (late.trans hlatest)⟩

end Paced

/-- Updates, one after the other. -/
def pass (m : Manner Rat RecitalRecord) (dts : List Rat) (d : Recital Rat) : Recital Rat :=
  dts.foldl (fun d dt => (update m dt d).1) d

theorem pass_cons {m : Manner Rat RecitalRecord} {dt : Rat} {d d' : Recital Rat}
    (h : update m dt d = (d', none)) (dts : List Rat) : pass m (dt :: dts) d = pass m dts d' := by
  unfold pass
  rw [List.foldl_cons, h]

/-- However time is cut into updates, behind them the line stands where it should by then. -/
theorem Paced.pass {began : Rat} {settled : Prop}
    (h : Paced interval sound text after id before began settled d) (hpos : 0 < interval)
    (hafter : ∀ wake, after = some wake → wake = []) {dts : List Rat} (hdts : ∀ dt ∈ dts, 0 ≤ dt) :
    (Recital.pass (manner interval sound) dts d).scheduler.time = d.scheduler.time + dts.sum ∧
      Paced interval sound text after id before began (settled ∨ dts ≠ [])
        (Recital.pass (manner interval sound) dts d) := by
  induction dts generalizing d settled with
  | nil => exact ⟨(add_zero _).symm, h.weaken (by simp)⟩
  | cons dt dts ih =>
    obtain ⟨hdt, hdts⟩ := List.forall_mem_cons.1 hdts
    obtain ⟨d', hupdate, htime, hpaced⟩ := h.update hpos hafter hdt
    obtain ⟨htimes, hpassed⟩ := ih hpaced hdts
    rw [pass_cons hupdate, htimes, htime, List.sum_cons]
    exact ⟨add_assoc .., hpassed.weaken fun _ => .inl trivial⟩

/-! ## Intervals that take no time -/

/-- Where a line stands after a number of updates, if its interval takes no time: each of them has
shown one character. -/
inductive Stepped (interval : Rat) (sound : Json) (text : String) (after : Option (List String))
    (id : TaskId) (before : List RecitalMark) (began : Rat) (count : Nat) (d : Recital Rat) : Prop
  | reading {tick : Nat}
    (reads : Reads sound text after id before (began + ↑(1 + count) * interval) tick (1 + count) d)
    (le : 1 + count ≤ text.length) (soon : tick ≤ d.scheduler.tick + 1) (past : began ≤ latest d)
  | complete (read : HasRead sound after before text.length d) (le : text.length ≤ count)

/-- An update shows one character, or completes the line. -/
theorem Stepped.update {began : Rat} {count : Nat}
    (h : Stepped interval sound text after id before began count d) (hneg : interval ≤ 0)
    (hafter : ∀ wake, after = some wake → wake = []) {dt : Rat} (hdt : 0 ≤ dt) :
    ∃ d', Recital.update (manner interval sound) dt d = (d', none) ∧
      Stepped interval sound text after id before began (count + 1) d' := by
  cases h with
  | complete read le =>
    exact ⟨_, read.update dt, .complete (read.advanced dt).swept (Nat.le_succ_of_le le)⟩
  | @reading tick reads le soon past =>
    have hpast : began ≤ latest (Recital.advanced dt d) := by
      refine past.trans ?_
      show d.scheduler.time + _ ≤ d.scheduler.time + dt + _
      linarith
    have hdue : began + ↑(1 + count) * interval ≤ latest (Recital.advanced dt d) :=
      (add_le_of_nonpos_right (mul_nonpos_of_nonneg_of_nonpos (Nat.cast_nonneg _) hneg)).trans hpast
    by_cases hlast : 1 + count = text.length
    · obtain ⟨d', hresume, hread, -⟩ := (reads.advanced dt).last interval hlast hafter
      have hserve := (reads.advanced dt).runDue_once hdue soon hresume (hread.quiet id)
      exact ⟨_, reads.update (hserve _) hread.quiet, .complete (hlast ▸ hread).swept (by omega)⟩
    · obtain ⟨d', hresume, hnext, htime, htick⟩ :=
        (reads.advanced dt).next interval (Nat.lt_of_le_of_ne le hlast)
      have hlater : (Request.wait interval).wakeTick (Recital.advanced dt d).scheduler.tick =
          d'.scheduler.tick + 1 := by
        simp [Request.wakeTick, Clock.lt, Clock.zero, not_lt.2 hneg, htick]
      have hwake : began + ↑(1 + count) * interval + interval =
          began + ↑(1 + (count + 1)) * interval := by
        push_cast
        ring
      rw [hlater, hwake] at hnext
      have hquiet := hnext.quiet (.inr (Nat.lt_succ_self _))
      have hserve := (reads.advanced dt).runDue_once hdue soon hresume (hquiet id)
      refine ⟨_, reads.update (hserve _) hquiet, .reading hnext.swept (by omega) (Nat.le_refl _) ?_⟩
      show began ≤ d'.scheduler.time + _
      rw [htime]
      exact hpast

/-- Behind any number of updates the line stands where it should. -/
theorem Stepped.pass {began : Rat} {count : Nat}
    (h : Stepped interval sound text after id before began count d) (hneg : interval ≤ 0)
    (hafter : ∀ wake, after = some wake → wake = []) {dts : List Rat} (hdts : ∀ dt ∈ dts, 0 ≤ dt) :
    Stepped interval sound text after id before began (count + dts.length)
      (Recital.pass (manner interval sound) dts d) := by
  induction dts generalizing d count with
  | nil => exact h
  | cons dt dts ih =>
    obtain ⟨hdt, hdts⟩ := List.forall_mem_cons.1 hdts
    obtain ⟨d', hupdate, hstepped⟩ := h.update hneg hafter hdt
    have hpassed := ih hstepped hdts
    rw [pass_cons hupdate, List.length_cons, Nat.add_comm dts.length, ← Nat.add_assoc]
    exact hpassed

/-! ## The beginning -/

namespace Begun
variable {d' : Recital Rat} (h : Begun interval sound text after d d')
include h

/-- From the beginning a line stands where it should, if its interval is longer than the
tolerance. -/
theorem paced (hpos : 0 < interval) : ∃ id, Paced interval sound text after id
    (d.outside.marks ++ opening text) d.scheduler.time (Clock.slack Rat < interval) d' := by
  have hlatest : latest d' = d.scheduler.time + Clock.slack Rat := by rw [latest, h.clock.1]
  have hslack := Timetable.slack_nonneg
  cases h with
  | @reading id some reads clock =>
    have hnow : (Request.wait interval).wakeTick d.scheduler.tick = d'.scheduler.tick := by
      simp [Request.wakeTick, Clock.lt, Clock.zero, hpos, clock.2]
    rw [show d.scheduler.time + interval = d.scheduler.time + ↑(1 : Nat) * interval by simp] at reads
    refine ⟨id, .reading reads some (Nat.le_of_eq hnow) ?_ fun hlong => ?_⟩
    · rw [hlatest, Nat.cast_one, sub_self, zero_mul]
      linarith
    · rw [hlatest, Nat.cast_one, one_mul]
      linarith
  | complete none read =>
    refine ⟨0, .complete read ?_⟩
    rw [hlatest, none, Nat.cast_zero, zero_mul]
    linarith

theorem stepped : ∃ id, Stepped interval sound text after id (d.outside.marks ++ opening text)
    d.scheduler.time 0 d' := by
  cases h with
  | @reading id some reads clock =>
    rw [show d.scheduler.time + interval = d.scheduler.time + ↑(1 + 0 : Nat) * interval by simp]
      at reads
    refine ⟨id, .reading reads some ?_ ?_⟩
    · rw [clock.2]
      exact Timetable.wakeTick_le _ _
    · have hslack := Timetable.slack_nonneg
      rw [latest, clock.1]
      linarith
  | complete none read => exact ⟨0, .complete read (Nat.le_of_eq none)⟩

end Begun

/-! ## The pace -/

/-- How a line stands that was begun in `d`: so many characters have been shown, one after the
other, each with its sound, and nothing else was called. If the line is over it is complete, and
that has been told once; else it is being revealed. -/
structure Stands (sound : Json) (text : String) (after : Option (List String)) (n : Nat)
    (ended : Prop) (d d' : Recital Rat) : Prop where
  revealed : d'.session.revealed = n
  reading : ¬ended → d'.session.revealing = true ∧
    d'.outside.marks = d.outside.marks ++ opening text ++ scrolled sound n
  complete : ended → d'.session.revealing = false ∧
    d'.outside.marks = d.outside.marks ++ opening text ++ scrolled sound n ++ closing after

theorem Reads.stands {d' : Recital Rat} {ended : Prop}
    (h : Reads sound text after id (d.outside.marks ++ opening text) due tick n d')
    (hover : ¬ended) : Stands sound text after n ended d d' :=
  ⟨h.revealed, fun _ => ⟨h.revealing, h.marks⟩, fun h => absurd h hover⟩

theorem HasRead.stands {d' : Recital Rat} {ended : Prop}
    (h : HasRead sound after (d.outside.marks ++ opening text) n d') (hover : ended) :
    Stands sound text after n ended d d' :=
  ⟨h.revealed, fun h => absurd hover h, fun _ => ⟨h.revealing, h.marks⟩⟩

theorem Begun.stands {d' : Recital Rat} (h : Begun interval sound text after d d') :
    Stands sound text after (min text.length 1) (text.length = 0) d d' := by
  cases h with
  | reading some reads =>
    rw [min_eq_right some]
    exact reads.stands (Nat.ne_of_gt some)
  | complete none read =>
    rw [min_eq_left (by omega)]
    exact read.stands none

/-- As many characters are in time as intervals have gone by, and the first. -/
theorem floor_of_pace {elapsed : Rat} (hpos : 0 < interval) (helapsed : 0 ≤ elapsed)
    (hshown : (n - 1) * interval ≤ elapsed) (hwaits : elapsed < n * interval) :
    1 + ⌊elapsed / interval⌋₊ = n := by
  have hn : n ≠ 0 := by
    rintro rfl
    rw [Nat.cast_zero, zero_mul] at hwaits
    exact absurd helapsed (not_le_of_gt hwaits)
  obtain ⟨k, rfl⟩ := Nat.exists_eq_succ_of_ne_zero hn
  have hfloor : ⌊elapsed / interval⌋₊ = k := by
    rw [Nat.floor_eq_iff (div_nonneg helapsed hpos.le), le_div_iff₀ hpos, div_lt_iff₀ hpos]
    push_cast at hshown hwaits
    rw [add_sub_cancel_right] at hshown
    exact ⟨hshown, hwaits⟩
  omega

theorem Paced.stands {began elapsed : Rat} {settled : Prop} {d' : Recital Rat}
    (h : Paced interval sound text after id (d.outside.marks ++ opening text) began settled d')
    (hpos : 0 < interval) (hsettled : settled) (hlatest : latest d' = began + elapsed)
    (helapsed : 0 ≤ elapsed) : Stands sound text after
      (min text.length (1 + ⌊elapsed / interval⌋₊)) (text.length * interval ≤ elapsed) d d' := by
  cases h with
  | @reading n tick reads le soon shown waits =>
    have hlt := waits hsettled
    rw [hlatest] at shown hlt
    have hwaits : elapsed < n * interval := by linarith
    have hcount := floor_of_pace hpos helapsed (n := n) (by linarith) hwaits
    rw [hcount, min_eq_right le]
    refine reads.stands (not_le_of_gt (hwaits.trans_le ?_))
    exact mul_le_mul_of_nonneg_right (Nat.cast_le.2 le) hpos.le
  | complete read late =>
    rw [hlatest] at late
    have hover : text.length * interval ≤ elapsed := by linarith
    have hcount : text.length ≤ ⌊elapsed / interval⌋₊ :=
      Nat.le_floor ((le_div_iff₀ hpos).2 hover)
    rw [min_eq_left (by omega)]
    exact read.stands hover

theorem Stepped.stands {began : Rat} {count : Nat} {d' : Recital Rat}
    (h : Stepped interval sound text after id (d.outside.marks ++ opening text) began count d') :
    Stands sound text after (min text.length (1 + count)) (text.length ≤ count) d d' := by
  cases h with
  | reading reads le =>
    rw [min_eq_right le]
    exact reads.stands (by omega)
  | complete read le =>
    rw [min_eq_left (by omega)]
    exact read.stands le

/-- As long as no reveal goes astray, no task is left when a line is about to be begun. -/
theorem over_of_goes {m : Manner Rat RecitalRecord} {d₀ : Recital Rat} {es : List (Note Rat)}
    (hempty : d₀.scheduler = .empty) (h : (reciter m).Goes [] d₀ es d) (hstrays : strays [] es = [])
    (text : String) (j : TaskId) :
    ((d.withSession (Session.beginLine text)).cancelReveal m.stage).scheduler.isDone j = true := by
  have hline : d.Aside (d.withSession (Session.beginLine text)) := ⟨rfl, rfl⟩
  have hgoes := h.recites (.aside hline (.refl _))
  have hfresh : (reciter m).conduct.Chronicle Activity.rounds [] d₀ := .fresh hempty
  have hnone : Reciter.Kept [] d₀ := by
    refine ⟨.of_none fun id hid => ?_, .nil⟩
    obtain ⟨t, rest, ht, -⟩ := Scheduler.waits_iff.1 hid
    rw [hempty] at ht
    cases ht
  exact (hgoes.kept hfresh hnone (by simpa using hstrays)).all_done (hgoes.chronicle hfresh) j

/-- A line that is begun when no skip was asked for, and then left alone, keeps pace: by the first
update, and from the beginning if the interval is longer than the tolerance, as many characters are
shown as intervals have gone by, and the first; until then just the first; and one more with each
update if the interval takes no time. The line is complete when an interval has gone by, or an update
been made, for each of its characters. -/
theorem reveal_keeps_pace {d₀ : Recital Rat} {es : List (Note Rat)}
    (hempty : d₀.scheduler = .empty) (h : (reciter (manner interval sound)).Goes [] d₀ es d)
    (hstrays : strays [] es = []) (hskip : d.session.skip = false)
    (hafter : ∀ wake, after = some wake → wake = []) {dts : List Rat} (hdts : ∀ dt ∈ dts, 0 ≤ dt) :
    let m := manner interval sound
    let d' := pass m dts (begin m text after d).1
    let elapsed := dts.sum + Clock.slack Rat
    (0 < interval → dts ≠ [] ∨ Clock.slack Rat < interval →
      Stands sound text after (min text.length (1 + ⌊elapsed / interval⌋₊))
        (text.length * interval ≤ elapsed) d d') ∧
    (dts = [] → Stands sound text after (min text.length 1) (text.length = 0) d d') ∧
    (interval ≤ 0 → Stands sound text after (min text.length (1 + dts.length))
      (text.length ≤ dts.length) d d') := by
  intro m d' elapsed
  have hslack := Timetable.slack_nonneg
  have helapsed : 0 ≤ elapsed := add_nonneg (List.sum_nonneg hdts) hslack
  obtain ⟨d₁, hbegin, hbegun⟩ :=
    begin_begun interval sound (over_of_goes hempty h hstrays text) hskip hafter
  have hd' : d' = pass m dts d₁ := congrArg (pass m dts) (congrArg Prod.fst hbegin)
  rw [hd']
  refine ⟨fun hpos hsettled => ?_, fun hnone => ?_, fun hneg => ?_⟩
  · obtain ⟨id, hpaced⟩ := hbegun.paced hpos
    obtain ⟨htime, hpassed⟩ := hpaced.pass hpos hafter hdts
    refine hpassed.stands hpos hsettled.symm ?_ helapsed
    rw [latest, htime, hbegun.clock.1, add_assoc]
  · subst hnone
    exact hbegun.stands
  · obtain ⟨id, hstepped⟩ := hbegun.stepped
    have hpassed := hstepped.pass hneg hafter hdts
    rw [Nat.zero_add] at hpassed
    exact hpassed.stands

/-- A line is begun while the one before it is still being revealed. In seven hundredths of a
second it shows three of its own, the first one and two more. -/
theorem three_characters_in_two_updates :
    let dts : List Rat := [1 / 20, 1 / 50]
    let d := (begin plain "efghi" none couplet.1).1
    min "efghi".length (1 + ⌊(dts.sum + Clock.slack Rat) / (3 / 100)⌋₊) = 3 ∧
    couplet.1.isRevealing = true ∧
    Stands (.str "Text_Scroll") "efghi" none 3 False couplet.1 (pass plain dts d) := by
  intro dts d
  have hsilence : (reciter plain).Goes [] silence.1 silence.2 silence.1 := .stay
  have hgoes : (reciter plain).Goes [] silence.1 couplet.2 couplet.1 :=
    goes_later (goes_begun hsilence "ab" (some ["cd"])) (by decide +kernel)
  have hpace : Stands (.str "Text_Scroll") "efghi" none
      (min "efghi".length (1 + ⌊(dts.sum + Clock.slack Rat) / (3 / 100)⌋₊))
      ("efghi".length * (3 / 100) ≤ dts.sum + Clock.slack Rat) couplet.1 (pass plain dts d) :=
    (reveal_keeps_pace rfl hgoes (by decide +kernel) (by decide +kernel) (by simp)
      (by decide +kernel)).1 (by decide +kernel) (.inl (List.cons_ne_nil _ _))
  have hcount : min "efghi".length (1 + ⌊(dts.sum + Clock.slack Rat) / (3 / 100)⌋₊) = 3 := by
    decide +kernel
  have hover : ¬"efghi".length * (3 / 100) ≤ dts.sum + Clock.slack Rat := by decide +kernel
  rw [hcount, eq_false hover] at hpace
  exact ⟨hcount, by decide +kernel, hpace⟩

/-- An interval that is shorter than the tolerance: by the time that has gone by both characters are
due, but until the first update only one is shown. -/
theorem tiny_interval_waits_for_an_update :
    let interval : Rat := 1 / 10 ^ 10
    let d := (begin (manner interval (.str "Text_Scroll")) "ab" none silence.1).1
    min "ab".length (1 + ⌊(0 + Clock.slack Rat) / interval⌋₊) = 2 ∧
      "ab".length * interval ≤ 0 + Clock.slack Rat ∧
      d.session.revealed = 1 ∧ d.session.revealing = true := by
  decide +kernel

end Recital
end VisualNovel
