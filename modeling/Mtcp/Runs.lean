import Mathlib.Logic.Relation

namespace Mtcp.Runs

variable {σ ε : Type} (next : σ → ε → σ)

/-- Each event of a run happens in a state in which `cond` allows it. -/
def Along (cond : σ → ε → Prop) : σ → List ε → Prop
  | _, [] => True
  | s, e :: es => cond s e ∧ Along cond (next s e) es

instance decidableAlong (cond : σ → ε → Prop) [∀ s e, Decidable (cond s e)] :
    ∀ (s : σ) (es : List ε), Decidable (Along next cond s es)
  | _, [] => isTrue trivial
  | s, e :: es =>
    have := decidableAlong cond (next s e) es
    inferInstanceAs (Decidable (cond s e ∧ Along next cond (next s e) es))

variable {next}

theorem along_of_forall {cond : σ → ε → Prop} (h : ∀ s e, cond s e) (s : σ) (es : List ε) :
    Along next cond s es := by
  induction es generalizing s with
  | nil => trivial
  | cons e es ih => exact ⟨h s e, ih (next s e)⟩

theorem Along.of_append {cond : σ → ε → Prop} {s : σ} {es fs : List ε}
    (ha : Along next cond s (es ++ fs)) :
    Along next cond s es ∧ Along next cond (es.foldl next s) fs := by
  induction es generalizing s with
  | nil => exact ⟨trivial, ha⟩
  | cons e es ih => exact ⟨⟨ha.1, (ih ha.2).1⟩, (ih ha.2).2⟩

/-- The run lemma: what holds at the start and is kept by every allowed event holds in
the state a run reaches. -/
theorem foldl_invariant {inv : σ → Prop} {cond : σ → ε → Prop}
    (hstep : ∀ s e, inv s → cond s e → inv (next s e)) {s : σ} {es : List ε}
    (hs : inv s) (ha : Along next cond s es) : inv (es.foldl next s) := by
  induction es generalizing s with
  | nil => exact hs
  | cons e es ih => exact ih (hstep s e hs ha.1) ha.2

variable {κ μ : Type} (guard : κ → μ → Prop) (apply : κ → μ → κ)

/-- One move of an abstract machine, taken for a cause. -/
def Move (cause : κ → μ → Prop) (v w : κ) : Prop :=
  ∃ m, guard v m ∧ cause v m ∧ w = apply v m

def Reaches (cause : κ → μ → Prop) : κ → κ → Prop :=
  Relation.ReflTransGen (Move guard apply cause)

variable {guard apply} {cause : κ → μ → Prop}

theorem Reaches.refl (v : κ) : Reaches guard apply cause v v := Relation.ReflTransGen.refl

theorem Reaches.trans {u v w : κ} (h : Reaches guard apply cause u v)
    (h' : Reaches guard apply cause v w) : Reaches guard apply cause u w :=
  Relation.ReflTransGen.trans h h'

theorem Reaches.single {v w : κ} (m : μ) (hg : guard v m) (hc : cause v m) (hw : w = apply v m) :
    Reaches guard apply cause v w :=
  Relation.ReflTransGen.single ⟨m, hg, hc, hw⟩

theorem Reaches.of_eq {v w : κ} (h : w = v) : Reaches guard apply cause v w := by
  rw [h]
  exact .refl v

end Mtcp.Runs
