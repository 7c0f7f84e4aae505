/-!
Byte offsets into a text. A text is a list of characters; its offsets count the bytes of its UTF-8
form, so a cut at an offset exists only between two characters.
-/

namespace GlyphMachine.Text

/-- Number of bytes the text takes in UTF-8. -/
def byteSize : List Char → Nat
  | [] => 0
  | c :: cs => c.utf8Size + byteSize cs

@[simp] theorem byteSize_nil : byteSize [] = 0 := rfl

@[simp] theorem byteSize_cons (c : Char) (cs : List Char) :
    byteSize (c :: cs) = c.utf8Size + byteSize cs := rfl

@[simp] theorem byteSize_append (as bs : List Char) :
    byteSize (as ++ bs) = byteSize as + byteSize bs := by
  induction as with
  | nil => simp
  | cons c as ih => simp [ih, Nat.add_assoc]

/-- A string takes as many bytes as its characters. -/
theorem utf8ByteSize_ofList (cs : List Char) : (String.ofList cs).utf8ByteSize = byteSize cs := by
  induction cs with
  | nil => simp
  | cons c cs ih => rw [String.ofList_cons, String.utf8ByteSize_append, ih]; simp

/-- The parts of the text before and after the byte offset, if a character starts there or the text
ends there. -/
def splitAtByte? : Nat → List Char → Option (List Char × List Char)
  | 0, cs => some ([], cs)
  | _ + 1, [] => none
  | n + 1, c :: cs =>
    if c.utf8Size ≤ n + 1 then
      (splitAtByte? (n + 1 - c.utf8Size) cs).map fun (before, after) => (c :: before, after)
    else none

/-- The parts of a cut make up the text, and the first of them ends at the offset. -/
theorem splitAtByte?_eq_some {n : Nat} {cs before after : List Char}
    (h : splitAtByte? n cs = some (before, after)) :
    before ++ after = cs ∧ byteSize before = n := by
  induction cs generalizing n before with
  | nil =>
    cases n with
    | zero => simp_all [splitAtByte?]
    | succ n => simp [splitAtByte?] at h
  | cons c cs ih =>
    cases n with
    | zero => simp_all [splitAtByte?]
    | succ n =>
      simp only [splitAtByte?] at h
      split at h
      · rename_i fits
        obtain ⟨⟨front, back⟩, cut, parts⟩ := Option.map_eq_some_iff.mp h
        obtain ⟨rfl, rfl⟩ := Prod.mk.inj parts
        obtain ⟨text, size⟩ := ih cut
        simp only [List.cons_append, text, byteSize_cons, size, true_and]
        omega
      · cases h

end GlyphMachine.Text
