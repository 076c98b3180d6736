import Mathlib.Data.List.Nodup
import Mathlib.Logic.Function.Basic

namespace Mtcp.Chains

open List
open Function (update_self update_of_ne)

variable {α κ : Type}

/-! A hash table with chains: each bin is a list, new entries go to its end. -/

def insert (bin : Nat) (a : α) (t : Nat → List α) : Nat → List α :=
  Function.update t bin (t bin ++ [a])

def remove [DecidableEq α] (bin : Nat) (a : α) (t : Nat → List α) : Nat → List α :=
  Function.update t bin ((t bin).erase a)

def search [DecidableEq κ] (key : α → κ) (hash : κ → Nat) (k : κ) (t : Nat → List α) : Option α :=
  (t (hash k)).find? fun a => key a = k

/-- The entries are the live items, each once and in the bin of its key. -/
structure Holds (key : α → κ) (hash : κ → Nat) (t : Nat → List α) (live : α → Prop) : Prop where
  mem : ∀ a, live a → a ∈ t (hash (key a))
  live : ∀ b, ∀ a ∈ t b, live a
  bin : ∀ b, ∀ a ∈ t b, b = hash (key a)
  nodup : ∀ b, (t b).Nodup

def Unique (key : α → κ) (live : α → Prop) : Prop :=
  ∀ a b, live a → live b → key a = key b → a = b

variable {key key' : α → κ} {hash : κ → Nat} {t : Nat → List α} {live live' : α → Prop}
  {a : α} {k : κ}

theorem Holds.empty (key : α → κ) (hash : κ → Nat) : Holds key hash (fun _ => []) fun _ => False :=
  ⟨nofun, fun _ _ h => absurd h not_mem_nil, fun _ _ h => absurd h not_mem_nil, fun _ => nodup_nil⟩

theorem Holds.congr (h : Holds key hash t live) (hlive : ∀ a, live' a ↔ live a)
    (hkey : ∀ a, live a → hash (key' a) = hash (key a)) : Holds key' hash t live' := by
  refine ⟨fun a ha => ?_, fun b a ha => ?_, fun b a ha => ?_, h.nodup⟩
  · have ha' := (hlive a).mp ha
    rw [hkey a ha']
    exact h.mem a ha'
  · exact (hlive a).mpr (h.live b a ha)
  · rw [hkey a (h.live b a ha)]
    exact h.bin b a ha

theorem Unique.congr (h : Unique key live) (hlive : ∀ a, live' a → live a)
    (hkey : ∀ a, live a → key' a = key a) : Unique key' live' := by
  intro a b ha hb hab
  rw [hkey a (hlive a ha), hkey b (hlive b hb)] at hab
  exact h a b (hlive a ha) (hlive b hb) hab

theorem Holds.search_mem [DecidableEq κ] (h : search key hash k t = some a) :
    a ∈ t (hash k) ∧ key a = k :=
  ⟨mem_of_find?_eq_some h, by simpa using find?_some h⟩

theorem Holds.search_eq_some_iff [DecidableEq κ] (h : Holds key hash t live)
    (hu : Unique key live) : search key hash k t = some a ↔ live a ∧ key a = k := by
  constructor
  · intro hs
    obtain ⟨hmem, hkey⟩ := Holds.search_mem hs
    exact ⟨h.live _ a hmem, hkey⟩
  · rintro ⟨ha, rfl⟩
    cases hs : search key hash (key a) t with
    | none =>
      have hnone := find?_eq_none.mp hs a (h.mem a ha)
      simp at hnone
    | some b =>
      obtain ⟨hmem, hkey⟩ := Holds.search_mem hs
      rw [hu b a (h.live _ b hmem) ha hkey]

theorem Holds.search_eq_none_iff [DecidableEq κ] (h : Holds key hash t live) :
    search key hash k t = none ↔ ∀ a, live a → key a ≠ k := by
  constructor
  · rintro hs a ha rfl
    have hnone := find?_eq_none.mp hs a (h.mem a ha)
    simp at hnone
  · intro hne
    apply find?_eq_none.mpr
    intro a ha
    simpa using hne a (h.live _ a ha)

theorem mem_insert {b : Nat} {bin : Nat} {x : α} :
    x ∈ insert bin a t b ↔ x ∈ t b ∨ b = bin ∧ x = a := by
  unfold insert
  by_cases hb : b = bin
  · subst hb
    simp
  · simp [hb]

theorem Holds.insert (h : Holds key hash t live) (ha : ¬ live a) :
    Holds key hash (insert (hash (key a)) a t) fun x => live x ∨ x = a := by
  refine ⟨fun x hx => ?_, fun b x hx => ?_, fun b x hx => ?_, fun b => ?_⟩
  · rw [mem_insert]
    obtain hx | rfl := hx
    · exact .inl (h.mem x hx)
    · exact .inr ⟨rfl, rfl⟩
  · obtain hx | ⟨-, hx⟩ := mem_insert.mp hx
    · exact .inl (h.live b x hx)
    · exact .inr hx
  · obtain hx | ⟨hb, rfl⟩ := mem_insert.mp hx
    · exact h.bin b x hx
    · exact hb
  · unfold Chains.insert
    by_cases hb : b = hash (key a)
    · subst hb
      rw [update_self, nodup_append]
      refine ⟨h.nodup _, nodup_singleton a, fun x hx y hy => ?_⟩
      rw [mem_singleton] at hy
      subst hy
      rintro rfl
      exact ha (h.live _ x hx)
    · rw [update_of_ne hb]
      exact h.nodup b

theorem Holds.remove [DecidableEq α] (h : Holds key hash t live) :
    Holds key hash (remove (hash (key a)) a t) fun x => live x ∧ x ≠ a := by
  have hmem : ∀ b x, x ∈ Chains.remove (hash (key a)) a t b ↔ x ∈ t b ∧ x ≠ a := by
    intro b x
    unfold Chains.remove
    by_cases hb : b = hash (key a)
    · subst hb
      rw [update_self, (h.nodup _).mem_erase_iff, and_comm]
    · rw [update_of_ne hb]
      refine ⟨fun hx => ⟨hx, ?_⟩, And.left⟩
      rintro rfl
      exact hb (h.bin b x hx)
  refine ⟨fun x hx => ?_, fun b x hx => ?_, fun b x hx => ?_, fun b => ?_⟩
  · rw [hmem]
    exact ⟨h.mem x hx.1, hx.2⟩
  · rw [hmem] at hx
    exact ⟨h.live b x hx.1, hx.2⟩
  · rw [hmem] at hx
    exact h.bin b x hx.1
  · unfold Chains.remove
    by_cases hb : b = hash (key a)
    · subst hb
      rw [update_self]
      exact (h.nodup _).erase a
    · rw [update_of_ne hb]
      exact h.nodup b

end Mtcp.Chains
