/-!
# Reading octets as UTF-8 text

Octets are read by a machine that holds what the character begun so far still owes (`Partial`).  An octet that
cannot go on with the character begun ends it: the octets read for it, the longest run that some character
starts with, become one U+FFFD, and the octet is read anew.  `decode` keeps going; `decode?` gives up at the first such
place.

`decode_append` splits a reading at any place where no character is left open.
-/
namespace Folio

/-- A sequence of octets, as a file holds them. -/
abbrev Bytes := List UInt8

namespace Text

/-- A character of which only the first octets were read: how many more it needs, the range of the next one,
and the value of the bits so far. -/
structure Partial where
  owed : Nat
  low : Nat
  high : Nat
  bits : Nat
deriving DecidableEq, Repr

def replacement : Char := '\uFFFD'

/-- The effect of an octet between characters. -/
def first (b : Nat) : List Char × Option Partial :=
  if b < 0x80 then ([Char.ofNat b], none)
  else if 0xC2 ≤ b && b ≤ 0xDF then ([], some ⟨1, 0x80, 0xBF, b - 0xC0⟩)
  else if b == 0xE0 then ([], some ⟨2, 0xA0, 0xBF, 0⟩)
  else if b == 0xED then ([], some ⟨2, 0x80, 0x9F, 0xD⟩)
  else if 0xE1 ≤ b && b ≤ 0xEF then ([], some ⟨2, 0x80, 0xBF, b - 0xE0⟩)
  else if b == 0xF0 then ([], some ⟨3, 0x90, 0xBF, 0⟩)
  else if 0xF1 ≤ b && b ≤ 0xF3 then ([], some ⟨3, 0x80, 0xBF, b - 0xF0⟩)
  else if b == 0xF4 then ([], some ⟨3, 0x80, 0x8F, 4⟩)
  else ([replacement], none)

/-- One octet: the characters it completes and the character it leaves open. -/
def step : Option Partial → UInt8 → List Char × Option Partial
  | none, b => first b.toNat
  | some p, b =>
    let n := b.toNat
    if p.low ≤ n && n ≤ p.high then
      let bits := p.bits * 64 + n % 64
      if p.owed ≤ 1 then ([Char.ofNat bits], none) else ([], some ⟨p.owed - 1, 0x80, 0xBF, bits⟩)
    else
      let r := first n
      (replacement :: r.1, r.2)

/-- Reads octets from between characters (`none`) or inside one; a character left open at the end is replaced. -/
def decodeFrom : Option Partial → Bytes → List Char
  | none, [] => []
  | some _, [] => [replacement]
  | p, b :: bs => (step p b).1 ++ decodeFrom (step p b).2 bs

/-- What the machine has open after some octets. -/
def openAfter (p : Option Partial) (bs : Bytes) : Option Partial := bs.foldl (fun q b => (step q b).2) p

/-- The text of a file whatever its octets are. -/
def decode (bs : Bytes) : List Char := decodeFrom none bs

/-- An octet is accepted when it completes or goes on with a character. -/
def accepts (p : Option Partial) (b : UInt8) : Bool :=
  match p with
  | none => (first b.toNat).2.isSome || b.toNat < 0x80
  | some q => q.low ≤ b.toNat && b.toNat ≤ q.high

def decodeStrictFrom : Option Partial → Bytes → Option (List Char)
  | none, [] => some []
  | some _, [] => none
  | p, b :: bs => if accepts p b then ((step p b).1 ++ ·) <$> decodeStrictFrom (step p b).2 bs else none

/-- The text of a file if its octets are UTF-8. -/
def decode? (bs : Bytes) : Option (List Char) := decodeStrictFrom none bs

def encode (cs : List Char) : Bytes := cs.flatMap String.utf8EncodeChar

/-- Reading resumes at any place where no character is left open. -/
theorem decodeFrom_append (p : Option Partial) (xs ys : Bytes) (h : openAfter p xs = none) :
    decodeFrom p (xs ++ ys) = decodeFrom p xs ++ decodeFrom none ys := by
  induction xs generalizing p with
  | nil =>
    have hp : p = none := h
    subst hp
    rfl
  | cons b xs ih =>
    have h' : openAfter (step p b).2 xs = none := h
    have hl : decodeFrom p (b :: (xs ++ ys)) = (step p b).1 ++ decodeFrom (step p b).2 (xs ++ ys) := by
      cases p <;> rfl
    have hr : decodeFrom p (b :: xs) = (step p b).1 ++ decodeFrom (step p b).2 xs := by
      cases p <;> rfl
    rw [List.cons_append, hl, hr, ih _ h', List.append_assoc]

theorem decode_append (xs ys : Bytes) (h : openAfter none xs = none) : decode (xs ++ ys) = decode xs ++ decode ys :=
  decodeFrom_append none xs ys h

end Text

/-- The text of octets, with every run that is not UTF-8 replaced. -/
def Bytes.toText (bs : Bytes) : String := String.ofList (Text.decode bs)

def Bytes.ofText (s : String) : Bytes := Text.encode s.toList

end Folio
