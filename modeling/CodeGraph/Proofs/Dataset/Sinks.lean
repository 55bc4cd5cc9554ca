/-
# What a sink takes

A sink without an end takes all bytes (`Sink.put_unbounded`), and one that has room for some takes
those (`Sink.put_fits`, `Sink.put_cut`).  It does not matter in which pieces bytes are written, if
the writing stops at the first piece that is not taken whole (`Sink.putAll_eq`).
-/
import Mathlib
import CodeGraph.Dataset.Sink

namespace CodeGraph

namespace Sink

/-- The sink when these bytes have been taken. -/
def extend (sink : Sink) (bytes : List UInt8) : Sink :=
  { sink with bytes := sink.bytes ++ bytes.toArray }

/-- Bytes that are taken come behind what is held. -/
@[simp] theorem extend_bytes (sink : Sink) (bytes : List UInt8) :
    (sink.extend bytes).bytes.toList = sink.bytes.toList ++ bytes := by
  simp [extend]

@[simp] theorem extend_size (sink : Sink) (bytes : List UInt8) :
    (sink.extend bytes).bytes.size = sink.bytes.size + bytes.length := by
  simp [extend]

@[simp] theorem extend_nil (sink : Sink) : sink.extend [] = sink := by
  simp [extend]

/-- Bytes can be taken at once or one part after another. -/
@[simp] theorem extend_extend (sink : Sink) (bytes later : List UInt8) :
    (sink.extend bytes).extend later = sink.extend (bytes ++ later) := by
  simp [extend]

/-! ## One write -/

theorem put_unbounded {sink : Sink} (h : sink.capacity? = none) (bytes : List UInt8) :
    sink.put bytes = (sink.extend bytes, true) := by
  have hroom : sink.room? = none := by rw [room?, h, Option.map_none]
  rw [put, hroom, extend]

section Bounded

variable {sink : Sink} {c : Nat} {bytes : List UInt8}

/-- A sink takes as many bytes as it has room for. -/
theorem put_bounded (h : sink.capacity? = some c) (bytes : List UInt8) :
    sink.put bytes = (sink.extend (bytes.take (c - sink.bytes.size)),
      decide (bytes.length ≤ c - sink.bytes.size)) := by
  have hroom : sink.room? = some (c - sink.bytes.size) := by rw [room?, h, Option.map_some]
  rw [put, hroom, extend]

/-- What fits is taken. -/
theorem put_fits (h : sink.capacity? = some c) (hroom : bytes.length ≤ c - sink.bytes.size) :
    sink.put bytes = (sink.extend bytes, true) := by
  rw [put_bounded h, List.take_of_length_le hroom, decide_eq_true hroom]

/-- Of what does not fit, the front is taken. -/
theorem put_cut (h : sink.capacity? = some c) (hroom : c - sink.bytes.size < bytes.length) :
    sink.put bytes = (sink.extend (bytes.take (c - sink.bytes.size)), false) := by
  rw [put_bounded h, decide_eq_false (Nat.not_le.mpr hroom)]

/-- A full sink takes nothing. -/
theorem put_full (h : sink.capacity? = some c) (hfull : c ≤ sink.bytes.size) (hne : bytes ≠ []) :
    sink.put bytes = (sink, false) := by
  have hpos : 0 < bytes.length := List.length_pos_iff.mpr hne
  rw [put_cut h (by omega), Nat.sub_eq_zero_of_le hfull, List.take_zero, extend_nil]

end Bounded

/-- **A write is whole or is cut**, and if it is cut, the front has been taken. -/
theorem put_cases (sink : Sink) (bytes : List UInt8) :
    sink.put bytes = (sink.extend bytes, true) ∨
      ∃ n < bytes.length, sink.put bytes = (sink.extend (bytes.take n), false) := by
  cases hcapacity : sink.capacity? with
  | none => exact Or.inl (put_unbounded hcapacity bytes)
  | some c =>
    by_cases hroom : bytes.length ≤ c - sink.bytes.size
    · exact Or.inl (put_fits hcapacity hroom)
    · exact Or.inr ⟨_, Nat.lt_of_not_le hroom, put_cut hcapacity (Nat.lt_of_not_le hroom)⟩

/-! ## Many writes -/

/-- **It does not matter in which pieces bytes are written.** -/
theorem putAll_eq (sink : Sink) (pieces : List (List UInt8)) :
    sink.putAll pieces = sink.put pieces.flatten := by
  induction pieces generalizing sink with
  | nil =>
    rw [putAll, List.flatten_nil]
    rcases put_cases sink [] with hput | ⟨n, hn, -⟩
    · rw [hput, extend_nil]
    · exact absurd hn (Nat.not_lt_zero n)
  | cons piece pieces ih =>
    rw [putAll, List.flatten_cons]
    cases hcapacity : sink.capacity? with
    | none =>
      have hnext : (sink.extend piece).capacity? = none := hcapacity
      rw [put_unbounded hcapacity, put_unbounded hcapacity]
      dsimp only
      rw [ih, put_unbounded hnext, extend_extend]
    | some c =>
      -- a piece that fits leaves the rest of the room to the others, else it is the last one
      by_cases hroom : piece.length ≤ c - sink.bytes.size
      · have hnext : (sink.extend piece).capacity? = some c := hcapacity
        have hleft : c - (sink.bytes.size + piece.length) = c - sink.bytes.size - piece.length := by
          omega
        have hwhole : pieces.flatten.length ≤ c - sink.bytes.size - piece.length ↔
            piece.length + pieces.flatten.length ≤ c - sink.bytes.size := by
          omega
        rw [put_fits hcapacity hroom]
        dsimp only
        rw [ih, put_bounded hnext, put_bounded hcapacity, extend_extend, extend_size, hleft,
          List.take_append, List.take_of_length_le hroom, List.length_append]
        simp only [hwhole]
      · have hcut : c - sink.bytes.size < piece.length := Nat.lt_of_not_le hroom
        rw [put_cut hcapacity hcut, put_cut hcapacity (by rw [List.length_append]; omega),
          List.take_append_of_le_length (by omega)]

end Sink

end CodeGraph
