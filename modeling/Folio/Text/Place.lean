/-!
# Places in texts

A place in a text is the number of octets before it.  A text cannot be cut inside of a character or beyond its end
(`splitAt?`); the sizes of its parts are places where it can (`splitAt?_size`, `slice?_size`).
-/
namespace Folio.Text

/-- How many octets a text takes. -/
def size : List Char → Nat
  | [] => 0
  | c :: cs => c.utf8Size + size cs

/-- The text before a place, and the text from there on. -/
def splitAt? : Nat → List Char → Option (List Char × List Char)
  | 0, cs => some ([], cs)
  | _ + 1, [] => none
  | n + 1, c :: cs =>
    if c.utf8Size ≤ n + 1 then
      (splitAt? (n + 1 - c.utf8Size) cs).map fun (front, rest) => (c :: front, rest)
    else none

/-- The text from a place on. -/
def from? (start : Nat) (cs : List Char) : Option (List Char) := (splitAt? start cs).map (·.2)

/-- The text from one place up to another. -/
def slice? (start stop : Nat) (cs : List Char) : Option (List Char) :=
  if stop < start then none
  else (from? start cs).bind fun rest => (splitAt? (stop - start) rest).map (·.1)

@[simp] theorem size_nil : size [] = 0 := rfl

@[simp] theorem size_cons (c : Char) (cs : List Char) : size (c :: cs) = c.utf8Size + size cs := rfl

@[simp] theorem size_append (cs ds : List Char) : size (cs ++ ds) = size cs + size ds := by
  induction cs with
  | nil => exact (Nat.zero_add (size ds)).symm
  | cons c cs ih => rw [List.cons_append, size_cons, size_cons, ih, Nat.add_assoc]

theorem splitAt?_size : ∀ cs ds : List Char, splitAt? (size cs) (cs ++ ds) = some (cs, ds)
  | [], ds => by
    cases ds <;> rfl
  | c :: cs, ds => by
    obtain ⟨n, hn⟩ := Nat.exists_eq_succ_of_ne_zero (Nat.ne_of_gt c.utf8Size_pos)
    have hsize : size (c :: cs) = (n + size cs) + 1 := by
      rw [size_cons, hn, Nat.succ_add]
    rw [hsize, List.cons_append, splitAt?, if_pos (by omega)]
    rw [show n + size cs + 1 - c.utf8Size = size cs by omega, splitAt?_size cs ds]
    rfl

theorem from?_size (cs ds : List Char) : from? (size cs) (cs ++ ds) = some ds := by
  unfold from?
  rw [splitAt?_size]
  rfl

theorem slice?_size (cs ds es : List Char) :
    slice? (size cs) (size cs + size ds) (cs ++ (ds ++ es)) = some ds := by
  unfold slice?
  rw [if_neg (by omega), from?_size, Option.bind_some, Nat.add_sub_cancel_left, splitAt?_size]
  rfl

end Folio.Text
