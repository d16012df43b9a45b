/-!
# Bytes of a text

Offsets into a text and the lengths of its parts count bytes of UTF-8. `byteLength` measures a
list of characters that way; `utf8ByteSize_ofList` says that it is the size of the string they
make.
-/

namespace RecordSchema.Text

/-- Bytes that a list of characters takes in UTF-8. -/
def byteLength (cs : List Char) : Nat := cs.foldr (fun c n => c.utf8Size + n) 0

@[simp] theorem byteLength_nil : byteLength [] = 0 := rfl

@[simp] theorem byteLength_cons (c : Char) (cs : List Char) :
    byteLength (c :: cs) = c.utf8Size + byteLength cs := rfl

@[simp] theorem byteLength_append (xs ys : List Char) :
    byteLength (xs ++ ys) = byteLength xs + byteLength ys := by
  induction xs with
  | nil => simp
  | cons c xs ih => simp [ih, Nat.add_assoc]

theorem utf8ByteSize_ofList (cs : List Char) :
    (String.ofList cs).utf8ByteSize = byteLength cs := by
  induction cs with
  | nil => rfl
  | cons c cs ih =>
    have split : String.ofList (c :: cs) = String.singleton c ++ String.ofList cs :=
      String.toList_inj.mp (by simp)
    rw [split, String.utf8ByteSize_append, ih]
    simp

end RecordSchema.Text
