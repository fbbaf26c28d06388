import Qtrade.Lib.Calls

/-!
# A call while nobody else moves

Runs in which one call takes all the steps, and what they come to on the shared state and on the
program counter of that call alone.
-/

namespace Calls

variable {σ κ π ι ε : Type}

/-- One more call is under way. -/
def Config.begin (c : Config σ π) (p : π) : Config σ π := { c with calls := c.calls ++ [p] }

theorem Config.getElem?_begin (c : Config σ π) (p : π) : (c.begin p).calls[c.calls.length]? = some p := by
  simp [Config.begin]

namespace Program

variable {P : Program σ κ π ι ε}

/-- Only the call with this number moves. -/
def Only (index : Nat) (_ : Config σ π) : Action κ ι ε → Prop
  | .resume i _ => i = index
  | _ => False

/-- Steps of one call. -/
def Solo (P : Program σ κ π ι ε) (index : Nat) : σ × π → σ × π → Prop :=
  Relation.ReflTransGen fun r r' => ∃ input, P.next r.1 index r.2 input = some r'

variable {index : Nat} {s s' : σ} {p p' : π} {r t : σ × π}

theorem Solo.refl : P.Solo index r r := Relation.ReflTransGen.refl

theorem Solo.head {input : ι} (hn : P.next s index p input = some r) (h : P.Solo index r t) :
    P.Solo index (s, p) t :=
  Relation.ReflTransGen.head ⟨input, hn⟩ h

/-- What holds where the call begins and is kept by its steps holds wherever it gets to. -/
theorem Solo.invariant {R : σ → π → Prop} (h : P.Solo index (s, p) (s', p')) (hr : R s p)
    (hstep : ∀ s p input s' p', R s p → P.next s index p input = some (s', p') → R s' p') : R s' p' := by
  suffices hall : ∀ t, P.Solo index (s, p) t → R t.1 t.2 from hall _ h
  intro t ht
  induction ht with
  | refl => exact hr
  | tail _ hlast ih =>
    obtain ⟨input, hn⟩ := hlast
    exact hstep _ _ input _ _ ih hn

theorem Solo.cases_next (h : P.Solo index (s, p) t) (hn : ∀ input r', P.next s index p input = some r' → r' = r) :
    t = (s, p) ∨ P.Solo index r t := by
  rcases Relation.ReflTransGen.cases_head h with rfl | ⟨r', ⟨input, hr'⟩, hrest⟩
  · exact Or.inl rfl
  · rw [hn input r' hr'] at hrest
    exact Or.inr hrest

theorem Solo.eq_of_stuck (h : P.Solo index (s, p) t) (hn : ∀ input, P.next s index p input = none) :
    t = (s, p) := by
  rcases Relation.ReflTransGen.cases_head h with rfl | ⟨r', ⟨input, hr'⟩, _⟩
  · rfl
  · cases (hn input).symm.trans hr'

/-- A run of the new call alone. The other calls stay where they are. -/
theorem reaches_only_iff {c c' : Config σ π} :
    Runs.Reaches P.step (Only c.calls.length) (c.begin p) c' ↔
      ∃ r, P.Solo c.calls.length (c.shared, p) r ∧ c' = ({ c with shared := r.1 } : Config σ π).begin r.2 := by
  constructor
  · intro h
    induction h with
    | refl => exact ⟨_, .refl, rfl⟩
    | tail _ hlast ih =>
      obtain ⟨r, hsolo, rfl⟩ := ih
      obtain ⟨a, ha, hs⟩ := hlast
      cases a with
      | start _ | environment _ => cases ha
      | resume i input =>
        cases ha
        obtain ⟨q, q', hq, hnext, hcalls⟩ := step_resume hs
        have hq' := Config.getElem?_begin ({ c with shared := r.1 } : Config σ π) r.2
        obtain rfl : r.2 = q := Option.some.inj (hq'.symm.trans hq)
        refine ⟨(_, q'), Relation.ReflTransGen.tail hsolo ⟨input, hnext⟩, ?_⟩
        simp only [Config.begin] at hcalls ⊢
        rw [List.set_append_right _ _ (Nat.le_refl _), Nat.sub_self] at hcalls
        rw [← List.set_cons_zero, ← hcalls]
  · rintro ⟨r, hsolo, rfl⟩
    induction hsolo with
    | refl => exact .refl _
    | @tail r r' _ hlast ih =>
      obtain ⟨input, hn⟩ := hlast
      refine ih.tail (a := .resume c.calls.length input) rfl ?_
      simp [step, Config.begin, hn]

end Program

end Calls
