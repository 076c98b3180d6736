import Mathlib.Data.List.Nodup
import Mathlib.Data.List.TakeWhile
import Mathlib.Logic.Function.Basic

namespace Mtcp.Stamps

open List
open Function (update update_of_ne update_self)

/-! Queues whose entries are in the order of their time stamps. -/

variable {α σ β : Type}

/-- No entry is queued twice, the stamps lie between `start` and `now`, and they do not
decrease. -/
structure Ordered (start now : Nat) (stamp : α → Nat) (l : List α) : Prop where
  nodup : l.Nodup
  bounds : ∀ a ∈ l, start ≤ stamp a ∧ stamp a ≤ now
  sorted : l.Pairwise fun a b => stamp a ≤ stamp b

namespace Ordered

variable {start now : Nat} {stamp : α → Nat} {l : List α}

theorem nil : Ordered start now stamp [] := ⟨nodup_nil, nofun, .nil⟩

theorem mono (h : Ordered start now stamp l) {t : Nat} (ht : now ≤ t) : Ordered start t stamp l :=
  ⟨h.nodup, fun a ha => ⟨(h.bounds a ha).1, (h.bounds a ha).2.trans ht⟩, h.sorted⟩

theorem sublist (h : Ordered start now stamp l) {l' : List α} (hsub : l'.Sublist l) :
    Ordered start now stamp l' :=
  ⟨h.nodup.sublist hsub, fun a ha => h.bounds a (hsub.subset ha), h.sorted.sublist hsub⟩

variable [DecidableEq α]

theorem restamp (h : Ordered start now stamp l) {i : α} (hi : i ∉ l) (t : Nat) :
    Ordered start now (update stamp i t) l := by
  have hsame : ∀ a ∈ l, update stamp i t a = stamp a := by
    intro a ha
    apply update_of_ne
    rintro rfl
    exact hi ha
  refine ⟨h.nodup, fun a ha => ?_, h.sorted.imp_of_mem fun ha hb hab => ?_⟩
  · rw [hsame a ha]
    exact h.bounds a ha
  · rw [hsame _ ha, hsame _ hb]
    exact hab

theorem snoc (h : Ordered start now stamp l) {i : α} (hi : i ∉ l) {t : Nat} (hstart : start ≤ t)
    (ht : now ≤ t) : Ordered start t (update stamp i t) (l ++ [i]) := by
  have hold := (h.restamp hi t).mono ht
  refine ⟨?_, fun a ha => ?_, ?_⟩
  · exact nodup_append.mpr ⟨h.nodup, nodup_singleton i, fun a ha b hb hab =>
      hi (mem_singleton.mp hb ▸ hab ▸ ha)⟩
  · obtain hal | hai := mem_append.mp ha
    · exact hold.bounds a hal
    · rw [mem_singleton.mp hai, update_self]
      exact ⟨hstart, le_refl t⟩
  · refine pairwise_append.mpr ⟨hold.sorted, pairwise_singleton _ _, fun a ha b hb => ?_⟩
    rw [mem_singleton.mp hb, update_self]
    exact (hold.bounds a ha).2

theorem toTail (h : Ordered start now stamp l) (i : α) {t : Nat} (hstart : start ≤ t)
    (ht : now ≤ t) : Ordered start t (update stamp i t) (l.erase i ++ [i]) :=
  (h.sublist erase_sublist).snoc (h.nodup.not_mem_erase) hstart ht

end Ordered

/-- A walk along the queue that stops where `due` fails finds all that are due, if what is older
than something due is due. -/
theorem mem_takeWhile_iff {stamp : α → Nat} {l : List α} {due : α → Bool}
    (hsorted : l.Pairwise fun a b => stamp a ≤ stamp b)
    (hdown : ∀ a ∈ l, ∀ b ∈ l, stamp a ≤ stamp b → due b → due a) {a : α} :
    a ∈ l.takeWhile due ↔ a ∈ l ∧ due a := by
  induction l with
  | nil => simp
  | cons b l ih =>
    obtain ⟨hb, hl⟩ := pairwise_cons.mp hsorted
    have ih := ih hl fun x hx y hy =>
      hdown x (mem_cons_of_mem b hx) y (mem_cons_of_mem b hy)
    by_cases hdue : due b
    · rw [takeWhile_cons_of_pos hdue, mem_cons, ih, mem_cons]
      constructor
      · rintro (rfl | ⟨hal, hda⟩)
        · exact ⟨.inl rfl, hdue⟩
        · exact ⟨.inr hal, hda⟩
      · rintro ⟨rfl | hal, hda⟩
        · exact .inl rfl
        · exact .inr ⟨hal, hda⟩
    · rw [takeWhile_cons_of_neg hdue]
      constructor
      · exact nofun
      · rintro ⟨hal, hda⟩
        obtain rfl | hal := mem_cons.mp hal
        · exact absurd hda hdue
        · exact absurd (hdown b (.head _) a (mem_cons_of_mem b hal) (hb a hal) hda) hdue

theorem takeWhile_eq_of_forall {l : List α} {due due' : α → Bool}
    (h : ∀ a ∈ l, due a = due' a) : l.takeWhile due = l.takeWhile due' := by
  induction l with
  | nil => rfl
  | cons b l ih =>
    rw [takeWhile_cons, takeWhile_cons, h b (.head _), ih fun a ha => h a (mem_cons_of_mem b ha)]

/-- The walk over a queue that looks at no more than `thresh` entries and stops at the first
that is not due. -/
def scan (thresh : Int) (due : σ → α → Bool) (serve : σ → α → σ) : List α → Int → σ → σ
  | [], _, m => m
  | walk :: next, cnt, m =>
    if thresh < cnt + 1 then m
    else if due m walk then scan thresh due serve next (cnt + 1) (serve m walk)
    else m

theorem scan_rule {I : σ → Prop} {thresh : Int} {due : σ → α → Bool} {serve : σ → α → σ}
    (hserve : ∀ m a, I m → I (serve m a)) (l : List α) (cnt : Int) {m : σ} (h : I m) :
    I (scan thresh due serve l cnt m) := by
  induction l generalizing cnt m with
  | nil => exact h
  | cons walk next ih =>
    unfold scan
    split
    · exact h
    · split
      · exact ih (cnt + 1) (hserve m walk h)
      · exact h

theorem scan_eq_foldl {thresh : Int} {due : σ → α → Bool} {serve : σ → α → σ}
    (hother : ∀ m a b, a ≠ b → due (serve m a) b = due m b) {l : List α} (hl : l.Nodup) (cnt : Int)
    (m : σ) : scan thresh due serve l cnt m =
      ((l.take (thresh - cnt).toNat).takeWhile (due m)).foldl serve m := by
  induction l generalizing cnt m with
  | nil => simp [scan]
  | cons walk next ih =>
    obtain ⟨hwalk, hnext⟩ := nodup_cons.mp hl
    unfold scan
    by_cases hend : thresh < cnt + 1
    · rw [if_pos hend, Int.toNat_of_nonpos (by omega)]
      rfl
    · have hcount : (thresh - cnt).toNat = (thresh - (cnt + 1)).toNat + 1 := by omega
      rw [if_neg hend, hcount, take_succ_cons]
      by_cases hdue : due m walk
      · rw [if_pos hdue, takeWhile_cons_of_pos hdue, foldl_cons, ih hnext]
        have hsame : (next.take (thresh - (cnt + 1)).toNat).takeWhile (due (serve m walk)) =
            (next.take (thresh - (cnt + 1)).toNat).takeWhile (due m) := by
          refine takeWhile_eq_of_forall fun b hb => hother m walk b ?_
          rintro rfl
          exact hwalk (mem_of_mem_take hb)
        rw [hsame]
      · rw [if_neg hdue, takeWhile_cons_of_neg hdue]
        rfl

theorem foldl_view [DecidableEq α] {serve : σ → α → σ} {view : σ → α → β} {g : β → β}
    (hserve : ∀ m a b, view (serve m a) b = if b = a then g (view m a) else view m b) {l : List α}
    (hl : l.Nodup) (m : σ) (a : α) :
    view (l.foldl serve m) a = if a ∈ l then g (view m a) else view m a := by
  induction l generalizing m with
  | nil => simp
  | cons b l ih =>
    obtain ⟨hb, hl⟩ := nodup_cons.mp hl
    rw [foldl_cons, ih hl, hserve]
    by_cases hab : a = b
    · subst hab
      simp [hb]
    · simp [hab]

end Mtcp.Stamps
