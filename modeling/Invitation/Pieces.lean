/-!
# Cutting a list into pieces

`pieces n l` cuts `l` into consecutive pieces of `n` members; only the last one may be shorter.
Block ciphers, hashes and the text forms of bytes all read their input this way. The main
statement is `pieces_eq_cons`: the first piece is the first `n` members, and the others are the
pieces of what follows.
-/

namespace Invitation

variable {α : Type _}

/-- The loop of `pieces`: `piece` is the piece under way, last member first, and takes `room` more
members; `done` holds the finished pieces, last one first. -/
def piecesLoop (n : Nat) : List α → Nat → List α → List (List α) → List (List α)
  | [], _, piece, done => (if piece.isEmpty then done else piece.reverse :: done).reverse
  | a :: l, 0, piece, done => piecesLoop n l (n - 1) [a] (piece.reverse :: done)
  | a :: l, room + 1, piece, done => piecesLoop n l room (a :: piece) done

/-- Cuts a list into pieces of `n` members, in order; the last piece may be shorter. -/
def pieces (n : Nat) (l : List α) : List (List α) := piecesLoop n l n [] []

/-- Nothing is cut into no pieces. -/
@[simp] theorem pieces_nil (n : Nat) : pieces n ([] : List α) = [] := rfl

/-- What is finished stands in front of what the loop still makes. -/
theorem piecesLoop_done (n : Nat) (l : List α) (room : Nat) (piece : List α)
    (done : List (List α)) :
    piecesLoop n l room piece done = done.reverse ++ piecesLoop n l room piece [] := by
  induction l generalizing room piece done with
  | nil => by_cases h : piece.isEmpty <;> simp [piecesLoop, h]
  | cons a l ih =>
    cases room with
    | zero => rw [piecesLoop, piecesLoop, ih, ih _ _ [_]]; simp
    | succ room => rw [piecesLoop, piecesLoop, ih]

/-- The loop fills the piece under way first and then starts anew. -/
theorem piecesLoop_piece {n : Nat} (hn : 0 < n) (l : List α) (room : Nat) {piece : List α}
    (hp : piece ≠ []) :
    piecesLoop n l room piece [] = (piece.reverse ++ l.take room) :: pieces n (l.drop room) := by
  induction l generalizing room piece with
  | nil => cases room <;> simp [piecesLoop, hp]
  | cons a l ih =>
    cases room with
    | zero =>
      obtain ⟨m, rfl⟩ : ∃ m, n = m + 1 := ⟨n - 1, by omega⟩
      rw [piecesLoop, piecesLoop_done]
      simp [pieces, piecesLoop]
    | succ room => rw [piecesLoop, ih _ (by simp)]; simp

/-- The first piece is the first `n` members, and the others are the pieces of what follows. -/
theorem pieces_eq_cons {n : Nat} (hn : 0 < n) {l : List α} (hl : l ≠ []) :
    pieces n l = l.take n :: pieces n (l.drop n) := by
  obtain ⟨m, rfl⟩ : ∃ m, n = m + 1 := ⟨n - 1, by omega⟩
  cases l with
  | nil => exact absurd rfl hl
  | cons a l => rw [pieces, piecesLoop, piecesLoop_piece hn _ _ (by simp)]; simp

end Invitation
