import Mathlib.Data.List.Basic
import Mathlib.Data.List.Nodup

/-!
# The journal of a queue

What a queue accepted and what was taken from it. Each acceptance gets a number, so that equal items can
be told apart and an item that comes out twice, or not at all, shows.
-/

variable {α : Type}

/-- An item under the number of its acceptance. -/
structure Ticket (α : Type) where
  number : Nat
  item : α
deriving DecidableEq

inductive JournalEntry (α : Type)
  | accepted (ticket : Ticket α)
  | taken (ticket : Ticket α)
deriving DecidableEq

/-- The entries, the latest first. -/
abbrev Journal (α : Type) := List (JournalEntry α)

namespace Journal

/-- What was accepted, in order. -/
def accepted : Journal α → List (Ticket α)
  | [] => []
  | .accepted ticket :: past => accepted past ++ [ticket]
  | .taken _ :: past => accepted past

/-- What was taken, in order. -/
def taken : Journal α → List (Ticket α)
  | [] => []
  | .accepted _ :: past => taken past
  | .taken ticket :: past => taken past ++ [ticket]

/-- The ticket of the next item. -/
def ticket (j : Journal α) (item : α) : Ticket α := ⟨j.accepted.length, item⟩

variable {j : Journal α} {waiting rest : List (Ticket α)} {p : Ticket α → Bool} {t : Ticket α}

@[simp] theorem accepted_accept : accepted (.accepted t :: j) = j.accepted ++ [t] := rfl
@[simp] theorem accepted_take : accepted (.taken t :: j) = j.accepted := rfl
@[simp] theorem taken_accept : taken (.accepted t :: j) = j.taken := rfl
@[simp] theorem taken_take : taken (.taken t :: j) = j.taken ++ [t] := rfl

theorem mem_accepted : t ∈ j.accepted ↔ .accepted t ∈ j := by
  induction j with
  | nil => simp [accepted]
  | cons entry past ih => cases entry <;> simp [ih, or_comm]

theorem mem_taken : t ∈ j.taken ↔ .taken t ∈ j := by
  induction j with
  | nil => simp [taken]
  | cons entry past ih => cases entry <;> simp [ih, or_comm]

/-! ## Nothing is lost and nothing comes twice -/

/-- What was accepted is what was taken and what waits, and the tickets are numbered from zero. -/
structure Keeps (j : Journal α) (waiting : List (Ticket α)) : Prop where
  balanced : (j.taken ++ waiting).Perm j.accepted
  numbered : j.accepted.map (·.number) = List.range j.accepted.length

theorem keeps_nil : Keeps ([] : Journal α) [] := ⟨.refl _, rfl⟩

theorem Keeps.nodup (h : j.Keeps waiting) : j.accepted.Nodup := by
  apply List.Nodup.of_map (·.number)
  rw [h.numbered]
  exact List.nodup_range

theorem numbered_accept (h : j.accepted.map (·.number) = List.range j.accepted.length) (item : α) :
    (accepted (.accepted (j.ticket item) :: j)).map (·.number) =
      List.range (accepted (.accepted (j.ticket item) :: j)).length := by
  simp [h, ticket, List.range_succ]

theorem Keeps.accept_back (h : j.Keeps waiting) (item : α) :
    Keeps (.accepted (j.ticket item) :: j) (waiting ++ [j.ticket item]) := by
  refine ⟨?_, numbered_accept h.numbered item⟩
  rw [taken_accept, accepted_accept, ← List.append_assoc]
  exact h.balanced.append_right _

theorem Keeps.accept_front (h : j.Keeps waiting) (item : α) :
    Keeps (.accepted (j.ticket item) :: j) (j.ticket item :: waiting) := by
  refine ⟨?_, numbered_accept h.numbered item⟩
  rw [taken_accept, accepted_accept]
  exact List.perm_middle.trans ((h.balanced.cons _).trans (List.perm_append_singleton _ _).symm)

theorem Keeps.take (h : j.Keeps (t :: rest)) : Keeps (.taken t :: j) rest := by
  refine ⟨?_, h.numbered⟩
  rw [taken_take, accepted_take, List.append_assoc]
  exact h.balanced

/-! ## Order -/

/-- The items of a kind come out in the order in which they were accepted. -/
def InOrder (p : Ticket α → Bool) (j : Journal α) (waiting : List (Ticket α)) : Prop :=
  (j.taken ++ waiting).filter p = j.accepted.filter p

theorem InOrder.accept_back (h : j.InOrder p waiting) (t : Ticket α) :
    InOrder p (.accepted t :: j) (waiting ++ [t]) := by
  unfold InOrder at h ⊢
  rw [taken_accept, accepted_accept, ← List.append_assoc, List.filter_append, h, List.filter_append]

theorem InOrder.accept_front (h : j.InOrder p waiting) (ht : p t = false) :
    InOrder p (.accepted t :: j) (t :: waiting) := by
  unfold InOrder at h ⊢
  rw [List.filter_append] at h ⊢
  simp [ht, h]

theorem InOrder.take (h : j.InOrder p (t :: rest)) : InOrder p (.taken t :: j) rest := by
  unfold InOrder at h ⊢
  rw [taken_take, accepted_take, List.append_assoc]
  exact h

theorem InOrder.isPrefix (h : j.InOrder p waiting) : j.taken.filter p <+: j.accepted.filter p := by
  rw [← h, List.filter_append]
  exact List.prefix_append _ _

end Journal
