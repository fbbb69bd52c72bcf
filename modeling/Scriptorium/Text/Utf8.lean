/-!
# Bytes as text

Reading UTF-8. `Utf8.next` reads one character off the front of some bytes and says how far the
bytes are well formed when there is none; `Utf8.decode` reads them all, or says where the first
fault stands; `Utf8.decodeLossy` puts U+FFFD in the place of every fault.
-/
namespace Scriptorium.Text

/-- The content of a file or a stream. -/
abbrev Bytes := List UInt8

/-- Where bytes stop being UTF-8. `length` is the number of bytes that are no character, and is
absent when the bytes end inside a character. -/
structure Utf8.Fault where
  index : Nat
  length : Option Nat
deriving DecidableEq, Repr

/-- The wording of a fault. -/
def Utf8.Fault.message (f : Utf8.Fault) : String :=
  match f.length with
  | some n => s!"invalid utf-8 sequence of {n} bytes from index {f.index}"
  | none => s!"incomplete utf-8 byte sequence from index {f.index}"

namespace Utf8

/-- What stands at the front of some bytes. -/
inductive Front
  /-- No byte at all. -/
  | empty
  /-- A character, and what follows it. -/
  | char (c : Char) (rest : Bytes)
  /-- This many bytes that begin no character, and what follows them. -/
  | invalid (length : Nat) (rest : Bytes)
  /-- Bytes that begin a character and end before it does. -/
  | incomplete

/-- What a first byte promises: the bits it holds, the range of the second byte, and the number of
bytes after that. -/
structure Lead where
  bits : Nat
  low : Nat
  high : Nat
  more : Nat

/-- The promise of the first byte of a character of two to four bytes. -/
def lead? (b : Nat) : Option Lead :=
  if 0xC2 ≤ b ∧ b ≤ 0xDF then some ⟨b - 0xC0, 0x80, 0xBF, 0⟩
  else if b = 0xE0 then some ⟨0, 0xA0, 0xBF, 1⟩
  else if b = 0xED then some ⟨0xD, 0x80, 0x9F, 1⟩
  else if 0xE1 ≤ b ∧ b ≤ 0xEF then some ⟨b - 0xE0, 0x80, 0xBF, 1⟩
  else if b = 0xF0 then some ⟨0, 0x90, 0xBF, 2⟩
  else if 0xF1 ≤ b ∧ b ≤ 0xF3 then some ⟨b - 0xF0, 0x80, 0xBF, 2⟩
  else if b = 0xF4 then some ⟨4, 0x80, 0x8F, 2⟩
  else none

/-- Reads the continuation bytes of a character of which `taken` bytes are read. -/
def tails (bits taken : Nat) : Nat → Bytes → Front
  | 0, rest => .char (Char.ofNat bits) rest
  | _ + 1, [] => .incomplete
  | more + 1, b :: rest =>
    if 0x80 ≤ b.toNat ∧ b.toNat ≤ 0xBF then
      tails (bits * 64 + (b.toNat - 0x80)) (taken + 1) more rest
    else .invalid taken (b :: rest)

/-- What stands at the front of some bytes. -/
def next : Bytes → Front
  | [] => .empty
  | a :: rest =>
    if a.toNat < 0x80 then .char (Char.ofNat a.toNat) rest
    else
      match lead? a.toNat, rest with
      | none, _ => .invalid 1 rest
      | some _, [] => .incomplete
      | some l, b :: rest' =>
        if l.low ≤ b.toNat ∧ b.toNat ≤ l.high then
          tails (l.bits * 64 + (b.toNat - 0x80)) 2 l.more rest'
        else .invalid 1 rest

/-- What a character or a fault leaves is shorter than what was there. -/
def Front.Shorter (n : Nat) : Front → Prop
  | .char _ rest | .invalid _ rest => rest.length < n
  | .empty | .incomplete => True

private theorem tails_shorter (bits taken more : Nat) (bs : Bytes) :
    (tails bits taken more bs).Shorter (bs.length + 1) := by
  fun_induction tails bits taken more bs with
  | case1 => simp [Front.Shorter]
  | case2 => simp [Front.Shorter]
  | case3 bits taken more b rest h ih =>
    revert ih
    cases tails (bits * 64 + (b.toNat - 0x80)) (taken + 1) more rest <;> simp [Front.Shorter] <;> omega
  | case4 => simp [Front.Shorter]

theorem next_shorter (bs : Bytes) : (next bs).Shorter bs.length := by
  unfold next
  split
  · simp [Front.Shorter]
  · split
    · simp [Front.Shorter]
    · split
      · simp [Front.Shorter]
      · simp [Front.Shorter]
      · rename_i l b rest' _
        split
        · have := tails_shorter (l.bits * 64 + (b.toNat - 0x80)) 2 l.more rest'
          revert this
          cases tails (l.bits * 64 + (b.toNat - 0x80)) 2 l.more rest' <;>
            simp [Front.Shorter] <;> omega
        · simp [Front.Shorter]

/-- The text that bytes hold, or the first fault in them. -/
def decode (bs : Bytes) : Except Fault String :=
  go bs.length [] bs
where
  /-- `size` is the number of all the bytes and `done` what was read so far, last first. -/
  go (size : Nat) (done : List Char) (bs : Bytes) : Except Fault String :=
    match h : next bs with
    | .empty => .ok (String.ofList done.reverse)
    | .char c rest =>
      have : rest.length < bs.length := by simpa [h, Front.Shorter] using next_shorter bs
      go size (c :: done) rest
    | .invalid n _ => .error ⟨size - bs.length, some n⟩
    | .incomplete => .error ⟨size - bs.length, none⟩
  termination_by bs.length

/-- The text that bytes hold, with U+FFFD in the place of each fault. -/
def decodeLossy (bs : Bytes) : String :=
  go [] bs
where
  /-- `done` holds what was read so far, last first. -/
  go (done : List Char) (bs : Bytes) : String :=
    match h : next bs with
    | .empty => String.ofList done.reverse
    | .char c rest =>
      have : rest.length < bs.length := by simpa [h, Front.Shorter] using next_shorter bs
      go (c :: done) rest
    | .invalid _ rest =>
      have : rest.length < bs.length := by simpa [h, Front.Shorter] using next_shorter bs
      go ('\uFFFD' :: done) rest
    | .incomplete => String.ofList ('\uFFFD' :: done).reverse
  termination_by bs.length

/-- The bytes of a text. -/
def encode (s : String) : Bytes := s.toByteArray.toList

end Utf8

end Scriptorium.Text
