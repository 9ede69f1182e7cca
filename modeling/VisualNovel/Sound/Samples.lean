import VisualNovel.Json.Reader
import VisualNovel.Number
/-!
# Samples

A clip is a list of samples of 16 bits, one for each moment, or a list of rows with a sample for
each speaker. To play a clip faster it is sampled anew at evenly spaced moments from its first to
its last sample, with straight lines between the samples, and rounded toward zero.
-/
namespace VisualNovel.Sound

/-- The samples of a clip. -/
inductive Samples where
  | mono (values : List Int)
  | rows (values : List (List Int))
  deriving DecidableEq, Repr

namespace Samples

/-- A sample of 16 bits. -/
def sample? : Json → Option Int
  | .int n => if -32768 ≤ n ∧ n ≤ 32767 then some n else none
  | _ => none

/-- A row of samples. -/
def row? : Json → Option (List Int)
  | .arr items => items.mapM sample?
  | _ => none

/-- The samples of a clip, from a JSON list of samples or of rows of one length. -/
def ofJson? : Json → Option Samples
  | .arr items =>
    match items.mapM sample? with
    | some values => some (mono values)
    | none =>
      match items.mapM row? with
      | some values =>
        let widths := values.map List.length
        if widths.all (some · = widths.head?) then some (rows values) else none
      | none => none
  | _ => none

/-- The number of moments. -/
def length : Samples → Nat
  | mono values => values.length
  | rows values => values.length

/-- The value between the samples at a position; at a sample it is that sample. -/
def valueAt (samples : Array Int) (position : Float) : Int :=
  let j := (Number.floor? position).getD 0 |>.toNat
  let s (i : Nat) : Float := Float.ofInt (samples.getD i 0)
  let offset := position - Float.ofNat j
  let value := if offset == 0 then s j else (s (j + 1) - s j) * offset + s j
  (Number.trunc? value).getD 0

/-- The positions of `count > 1` evenly spaced moments among `n` samples. -/
def positions (n count : Nat) : List Float :=
  let last := Float.ofNat (n - 1)
  let gap := last / Float.ofNat (count - 1)
  (List.range count).map fun i => if i + 1 = count then last else Float.ofNat i * gap

/-- One voice sampled anew at the given positions. -/
def resample (ps : List Float) (values : List Int) : List Int :=
  let samples := values.toArray
  ps.map (valueAt samples)

/-- The voices of rows, one after the other. -/
def columns (values : List (List Int)) : List (List Int) :=
  (List.range (values.headD []).length).map fun c => values.map fun row => (row[c]?).getD 0

/-- The most moments that there is room for. -/
def mostMoments : Nat := 1 <<< 32

/-- The most moments that can be counted at all. -/
def countable : Nat := 1 <<< 60

/-- The samples of a clip played `pitch` times as fast. A clip of which not two samples would be
left stays as it is; rows of no samples cannot be sampled anew. -/
def speedUp (pitch : Float) (s : Samples) : Except Misfit Samples := do
  let count := (← Number.truncate (.real (Float.ofNat s.length / pitch))).toNat
  if count ≤ 1 then .ok s
  else if countable ≤ count then .error .value
  else if mostMoments ≤ count then .error .room
  else
    let ps := positions s.length count
    match s with
    | mono values => .ok (mono (resample ps values))
    | rows values =>
      let voices := (columns values).map fun v => (resample ps v).toArray
      if voices.isEmpty then .error .value
      else .ok (rows ((List.range count).map fun i => voices.map fun v => v.getD i 0))

end Samples
end VisualNovel.Sound
