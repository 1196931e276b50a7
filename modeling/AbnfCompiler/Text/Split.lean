/-!
Cutting a text at a character.
-/
namespace AbnfCompiler.Text

/-- The pieces between the copies of `mark`; never the empty list. -/
def pieces (mark : Char) : List Char → List (List Char)
  | [] => [[]]
  | c :: cs =>
    if c = mark then [] :: pieces mark cs
    else
      match pieces mark cs with
      | [] => [[c]]
      | p :: ps => (c :: p) :: ps

theorem pieces_of_not_mem {mark : Char} {cs : List Char} (h : mark ∉ cs) :
    pieces mark cs = [cs] := by
  induction cs with
  | nil => rfl
  | cons c cs ih =>
    rw [List.mem_cons, not_or] at h
    rw [pieces, if_neg (Ne.symm h.1), ih h.2]

theorem pieces_eq_splitOn (mark : Char) (cs : List Char) : pieces mark cs = cs.splitOn mark := by
  induction cs with
  | nil => exact (List.splitOn_nil mark).symm
  | cons c cs ih =>
    obtain ⟨p, ps, hsplit⟩ := List.exists_cons_of_ne_nil (List.splitOn_ne_nil mark cs)
    rw [pieces, ih, List.splitOn_cons_eq_if_modifyHead, hsplit]
    simp

theorem not_mem_of_mem_pieces {mark : Char} {cs piece : List Char} (h : piece ∈ pieces mark cs) :
    mark ∉ piece := by
  induction cs generalizing piece with
  | nil => simp_all [pieces]
  | cons c cs ih =>
    rw [pieces] at h
    split at h
    · obtain rfl | hpiece := List.mem_cons.1 h
      · exact List.not_mem_nil
      · exact ih hpiece
    · next hmark =>
      split at h
      · rw [List.mem_singleton.1 h, List.mem_singleton]
        exact Ne.symm hmark
      · next p ps hpieces =>
        rw [hpieces] at ih
        obtain rfl | hpiece := List.mem_cons.1 h
        · simp [Ne.symm hmark, ih List.mem_cons_self]
        · exact ih (List.mem_cons_of_mem p hpiece)

def splitAt (mark : Char) (s : String) : List String := (pieces mark s.toList).map String.ofList

/-- Line ends of every convention as line feeds. -/
def plainLines : List Char → List Char
  | '\r' :: '\n' :: cs => '\n' :: plainLines cs
  | '\r' :: cs => '\n' :: plainLines cs
  | c :: cs => c :: plainLines cs
  | [] => []

end AbnfCompiler.Text
