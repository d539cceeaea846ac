/-!
# Texts measured in bytes

Positions in a source count the bytes of its UTF-8 form, while the text itself is a list of
characters.  `byteLength` measures a text and `splitBytes` cuts one; a cut that would fall inside
a character moves to the end of that character (`splitBytes_append`, `byteLength_append`).
-/

namespace ScriptLang.Text

/-- The number of bytes that a text takes. -/
def byteLength (cs : List Char) : Nat := cs.foldl (fun n c => n + c.utf8Size) 0

theorem foldl_utf8Size (n : Nat) (cs : List Char) :
    cs.foldl (fun n c => n + c.utf8Size) n = n + byteLength cs := by
  unfold byteLength
  induction cs generalizing n with
  | nil => rfl
  | cons c cs ih =>
    rw [List.foldl_cons, List.foldl_cons, ih, ih (0 + c.utf8Size)]
    omega

@[simp] theorem byteLength_nil : byteLength [] = 0 := rfl

@[simp] theorem byteLength_cons (c : Char) (cs : List Char) :
    byteLength (c :: cs) = c.utf8Size + byteLength cs := by
  rw [← foldl_utf8Size, byteLength, List.foldl_cons, Nat.zero_add]

@[simp] theorem byteLength_append (as bs : List Char) :
    byteLength (as ++ bs) = byteLength as + byteLength bs := by
  induction as with
  | nil => simp
  | cons a as ih => simp [ih, Nat.add_assoc]

/-- The characters that begin within the first `n` bytes, and the others. -/
def splitBytes : Nat → List Char → List Char × List Char
  | 0, cs => ([], cs)
  | _ + 1, [] => ([], [])
  | n + 1, c :: cs =>
    let (front, back) := splitBytes (n + 1 - c.utf8Size) cs
    (c :: front, back)

/-- Cutting loses nothing. -/
theorem splitBytes_append (n : Nat) (cs : List Char) :
    (splitBytes n cs).1 ++ (splitBytes n cs).2 = cs := by
  fun_induction splitBytes n cs with
  | case1 => rfl
  | case2 => rfl
  | case3 n c cs front back h ih => simpa [h] using ih

/-- A cut after at least one byte takes at least one character of a text that has any. -/
theorem splitBytes_length_lt {n : Nat} {cs : List Char} (hn : 0 < n) (hcs : cs ≠ []) :
    (splitBytes n cs).2.length < cs.length := by
  have h := congrArg List.length (splitBytes_append n cs)
  match n, cs with
  | n + 1, c :: cs => simp [splitBytes] at h ⊢; omega

theorem splitBytes_length_le (n : Nat) (cs : List Char) :
    (splitBytes n cs).2.length ≤ cs.length := by
  have h := congrArg List.length (splitBytes_append n cs)
  simp at h
  omega

/-- A cut at the length of the first part of a text separates the parts. -/
theorem splitBytes_byteLength (as bs : List Char) :
    splitBytes (byteLength as) (as ++ bs) = (as, bs) := by
  induction as with
  | nil => simp [splitBytes]
  | cons a as ih =>
    have ha : 0 < a.utf8Size := Char.utf8Size_pos a
    obtain ⟨k, hk⟩ : ∃ k, a.utf8Size + byteLength as = k + 1 :=
      ⟨a.utf8Size + byteLength as - 1, by omega⟩
    have hrest : k + 1 - a.utf8Size = byteLength as := by omega
    simp [byteLength_cons, hk, splitBytes, hrest, ih]

end ScriptLang.Text
