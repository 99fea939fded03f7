/-!
# UTF-8

Decoding of bytes into characters. A fault says where the first ill-formed sequence starts and how
many bytes of it can still be told apart from what follows.
-/

namespace Flowscript.Text.Utf8

/-- The first place where bytes are not UTF-8. -/
structure Fault where
  /-- Index of the first byte that belongs to no character. -/
  index : Nat
  /-- Bytes that can never continue to a character; none if the input ends too early. -/
  length : Option Nat
deriving DecidableEq

/-- The text of a fault. -/
def Fault.message (fault : Fault) : String :=
  match fault.length with
  | some n => "invalid utf-8 sequence of " ++ toString n ++ " bytes from index " ++
      toString fault.index
  | none => "incomplete utf-8 byte sequence from index " ++ toString fault.index

/-- What a first byte asks of the bytes behind it: the bounds of the second one, and how many
follow in all. -/
def lead? (b : UInt8) : Option (Nat × Nat × Nat) :=
  let n := b.toNat
  if n < 0x80 then some (0, 0, 0)
  else if n < 0xC2 then none
  else if n ≤ 0xDF then some (0x80, 0xBF, 1)
  else if n = 0xE0 then some (0xA0, 0xBF, 2)
  else if n = 0xED then some (0x80, 0x9F, 2)
  else if n ≤ 0xEF then some (0x80, 0xBF, 2)
  else if n = 0xF0 then some (0x90, 0xBF, 3)
  else if n ≤ 0xF3 then some (0x80, 0xBF, 3)
  else if n = 0xF4 then some (0x80, 0x8F, 3)
  else none

/-- Reads `count` continuation bytes into the code point `value`, the first within `low` and
`high`. A failure counts the good bytes, `seen` of them so far, unless the input has ended. -/
def continuation (value low high seen : Nat) :
    (count : Nat) → (bytes : List UInt8) → Except (Option Nat) (Nat × List UInt8)
  | 0, bytes => .ok (value, bytes)
  | _ + 1, [] => .error none
  | count + 1, b :: bytes =>
    if low ≤ b.toNat && b.toNat ≤ high then
      continuation (value * 64 + b.toNat % 64) 0x80 0xBF (seen + 1) count bytes
    else .error (some seen)

theorem continuation_length {value low high seen count : Nat} {bytes rest : List UInt8} {v : Nat}
    (h : continuation value low high seen count bytes = .ok (v, rest)) :
    rest.length ≤ bytes.length := by
  fun_induction continuation value low high seen count bytes with
  | case1 => simp_all
  | case2 => simp at h
  | case3 value low high seen count b bytes _ ih => exact Nat.le_succ_of_le (ih h)
  | case4 => simp at h

/-- Decodes the bytes from `index` on. -/
def decodeFrom (index : Nat) (bytes : List UInt8) : Except Fault (List Char) :=
  match bytes with
  | [] => .ok []
  | b :: bytes =>
    match lead? b with
    | none => .error ⟨index, some 1⟩
    | some (low, high, count) =>
      let start := if count = 0 then b.toNat else b.toNat % (1 <<< (6 - count))
      match h : continuation start low high 1 count bytes with
      | .error length => .error ⟨index, length⟩
      | .ok (value, rest) =>
        have := continuation_length h
        match decodeFrom (index + count + 1) rest with
        | .error fault => .error fault
        | .ok cs => .ok (Char.ofNat value :: cs)
termination_by bytes.length
decreasing_by simp only [List.length_cons]; omega

/-- The text that the bytes encode. -/
def decode (bytes : List UInt8) : Except Fault String :=
  (decodeFrom 0 bytes).map String.ofList

end Flowscript.Text.Utf8
