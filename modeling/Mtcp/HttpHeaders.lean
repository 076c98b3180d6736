import Mathlib.Data.List.DropRight
import Mathlib.Tactic

namespace Mtcp.HttpHeaders

open List

/-! `util/http_parsing.c`: looking up a field in the text of an HTTP header. -/

/-- A string up to its NUL. A pointer into it is the rest of the string. -/
abbrev CString := { s : List UInt8 // 0 ∉ s }

def lower (c : UInt8) : UInt8 := if 65 ≤ c ∧ c ≤ 90 then c + 32 else c

/-- Whether `strncasecmp` returns 0. -/
def strncasecmp : Nat → List UInt8 → List UInt8 → Bool
  | 0, _, _ => true
  | _ + 1, [], [] => true
  | n + 1, a :: s, b :: t => lower a == lower b && strncasecmp n s t
  | _ + 1, _, _ => false

/-- The loops of `nre_strcasestr`; the outer one runs at most once for each character of the buffer.
-/
def search (first : UInt8) (rest : List UInt8) (n : Nat) : Nat → List UInt8 → Option (List UInt8)
  | 0, _ => none
  | fuel + 1, p =>
    match p.dropWhile (· != first) with
    | [] => none
    | c :: q => if strncasecmp n q rest then some (c :: q) else search first rest n fuel q

/-- `n` is an `int`, which `strncasecmp` takes as a `size_t`. -/
def nreStrcasestr (buf key : CString) : Option (List UInt8) :=
  match key.val with
  | [] => none
  | first :: rest =>
    search first rest ((rest.length : Int).bmod (2 ^ 32) % 2 ^ 64).toNat buf.val.length buf.val

def spaceOrTab (c : UInt8) : Bool := c == 32 || c == 9

def crOrNewline (c : UInt8) : Bool := c == 13 || c == 10

def copyValue : Nat → List UInt8 → List UInt8
  | 0, _ | _, [] => []
  | room + 1, c :: temp => if crOrNewline c then [] else c :: copyValue room temp

/-- Whether a value is returned, and the bytes that are written to `value`. -/
def httpHeaderStrVal (buf key : CString) (keylen : Nat) (valueLen : Int) : Bool × List UInt8 :=
  match nreStrcasestr buf key with
  | none => (false, [0])
  | some temp =>
    match (temp.drop keylen).dropWhile spaceOrTab with
    | [] => (false, [0])
    | c :: temp =>
      if crOrNewline c then (false, [0])
      else
        let text := copyValue (valueLen - 1).toNat (c :: temp)
        (!text.isEmpty, text ++ [0])

def httpCheckHeaderField (data field : CString) : Bool := (nreStrcasestr data field).isSome

/-! What a lookup is for. -/

def Begins (key p : List UInt8) : Prop := key.map lower <+: p.map lower

instance (key p : List UInt8) : Decidable (Begins key p) := inferInstanceAs (Decidable (_ <+: _))

/-- The rest of the text from the first place on that passes a test. -/
def findBy (test : List UInt8 → Bool) : List UInt8 → Option (List UInt8)
  | [] => none
  | c :: p => if test (c :: p) then some (c :: p) else findBy test p

def find (key : List UInt8) : List UInt8 → Option (List UInt8) :=
  findBy fun p => decide (Begins key p)

def line (p : List UInt8) : List UInt8 := p.takeWhile fun c => !crOrNewline c

def trimmed (p : List UInt8) : List UInt8 :=
  (p.dropWhile spaceOrTab).rdropWhile spaceOrTab

def headerValue (buf key : CString) : List UInt8 :=
  match find key.val buf.val with
  | none => []
  | some p => trimmed (line (p.drop key.val.length))

/-- The position is the first one, the field is found wherever it is there, and its value is
written within the bounds and ended with a NUL. -/
structure LooksUp (buf key : CString) (valueLen : Int) : Prop where
  position : nreStrcasestr buf key = find key.val buf.val
  check : httpCheckHeaderField buf key = true ↔ find key.val buf.val ≠ none
  value : (httpHeaderStrVal buf key key.val.length valueLen).2 =
    (headerValue buf key).take (valueLen - 1).toNat ++ [0]
  bound : ((httpHeaderStrVal buf key key.val.length valueLen).2.length : Int) ≤ valueLen

/-! The search. -/

theorem begins_cons {a b : UInt8} {s t : List UInt8} :
    Begins (b :: t) (a :: s) ↔ lower b = lower a ∧ Begins t s :=
  cons_prefix_cons

theorem strncasecmp_length (s t : List UInt8) : strncasecmp t.length s t = decide (Begins t s) := by
  induction t generalizing s with
  | nil => simp [strncasecmp, Begins]
  | cons b t ih =>
    cases s with
    | nil => simp [strncasecmp, Begins]
    | cons a s =>
      rw [length_cons, strncasecmp, ih, Bool.eq_iff_iff, Bool.and_eq_true, beq_iff_eq,
        decide_eq_true_iff, decide_eq_true_iff, begins_cons, eq_comm]

variable {test test' : List UInt8 → Bool} {p : List UInt8}

theorem findBy_test {l : List UInt8} (h : findBy test l = some p) : test p := by
  induction l with
  | nil => cases h
  | cons c l ih =>
    rw [findBy] at h
    split_ifs at h with hc
    · cases h
      exact hc
    · exact ih h

/-- A stricter test finds the same place just when that place passes it. -/
theorem findBy_eq_iff (hle : ∀ p, test p → test' p) (l : List UInt8) :
    findBy test l = findBy test' l ↔ ∀ p ∈ findBy test' l, test p := by
  constructor
  · intro heq p hp
    rw [← heq] at hp
    exact findBy_test hp
  · intro h
    induction l with
    | nil => rfl
    | cons c l ih =>
      rw [findBy, findBy]
      rw [findBy] at h
      by_cases hc : test' (c :: l)
      · rw [if_pos hc] at h ⊢
        rw [if_pos (h _ rfl)]
      · rw [if_neg hc] at h ⊢
        rw [if_neg (mt (hle _) hc), ih h]

/-- The test of `nre_strcasestr`: the first character is compared as it is. -/
def exactly (first : UInt8) (rest : List UInt8) : List UInt8 → Bool
  | [] => false
  | c :: q => c == first && decide (Begins rest q)

theorem search_eq {first : UInt8} {rest : List UInt8} {fuel : Nat} (h : p.length ≤ fuel) :
    search first rest rest.length fuel p = findBy (exactly first rest) p := by
  induction p generalizing fuel with
  | nil =>
    cases fuel with
    | zero | succ => rfl
  | cons c p ih =>
    cases fuel with
    | zero => exact absurd h (Nat.not_succ_le_zero _)
    | succ fuel =>
      rw [findBy]
      by_cases hc : c = first
      · subst hc
        rw [search, dropWhile_cons_of_neg (by simp)]
        have hexact : exactly c rest (c :: p) = decide (Begins rest p) := by simp [exactly]
        rw [hexact, ← strncasecmp_length, ← ih (Nat.le_of_succ_le_succ h)]
      · have hskip : search first rest rest.length (fuel + 1) (c :: p) =
            search first rest rest.length (fuel + 1) p := by
          rw [search, search, dropWhile_cons, if_pos (bne_iff_ne.mpr hc)]
        rw [hskip, ih (Nat.le_of_succ_le h), if_neg (by simp [exactly, hc])]

theorem find_eq_iff (buf key : CString) (hkey : key.val ≠ []) (hint : key.val.length ≤ 2 ^ 31) :
    nreStrcasestr buf key = find key.val buf.val ↔
      ∀ p ∈ find key.val buf.val, p.head? = key.val.head? := by
  obtain ⟨first, rest, hcons⟩ := exists_cons_of_ne_nil hkey
  rw [hcons] at hint ⊢
  have hn : ((rest.length : Int).bmod (2 ^ 32) % 2 ^ 64).toNat = rest.length := by
    rw [length_cons] at hint
    rw [Int.bmod_eq_of_le (by omega) (by omega), Int.emod_eq_of_lt (by omega) (by omega)]
    rfl
  have hexact : ∀ p, exactly first rest p ↔ p.head? = some first ∧ Begins (first :: rest) p := by
    intro p
    cases p with
    | nil => simp [exactly]
    | cons c q =>
      rw [exactly, Bool.and_eq_true, beq_iff_eq, decide_eq_true_iff, begins_cons, head?_cons,
        Option.some.injEq]
      constructor
      · rintro ⟨rfl, hq⟩
        exact ⟨rfl, rfl, hq⟩
      · rintro ⟨rfl, -, hq⟩
        exact ⟨rfl, hq⟩
  unfold nreStrcasestr find
  rw [hcons]
  dsimp only
  rw [hn, search_eq (Nat.le_refl _), findBy_eq_iff fun p hp => decide_eq_true ((hexact p).mp hp).2]
  refine forall₂_congr fun p hp => ?_
  rw [hexact, head?_cons, and_iff_left (of_decide_eq_true (findBy_test hp))]

theorem copied_iff {v w : List UInt8} (h : w <+: v) (room : Nat) :
    v.take room = w.take room ↔ v = w ∨ room ≤ w.length := by
  obtain ⟨blanks, rfl⟩ := h
  constructor
  · intro heq
    have hlen := congrArg length heq
    rw [length_take, length_take, length_append] at hlen
    by_cases hle : room ≤ w.length
    · exact .inr hle
    · have hblanks : blanks = [] := eq_nil_of_length_eq_zero (by omega)
      rw [hblanks, append_nil]
      exact .inl rfl
  · rintro (heq | hle)
    · rw [heq]
    · rw [take_append_of_le_length hle]

theorem copyValue_eq (room : Nat) (p : List UInt8) : copyValue room p = (line p).take room := by
  induction room generalizing p with
  | zero => rw [copyValue, take_zero]
  | succ room ih =>
    cases p with
    | nil => rfl
    | cons c p =>
      rw [copyValue, line, takeWhile_cons]
      cases hc : crOrNewline c with
      | true => rfl
      | false => simp [ih, line]

theorem line_dropWhile (p : List UInt8) :
    line (p.dropWhile spaceOrTab) = (line p).dropWhile spaceOrTab := by
  induction p with
  | nil => rfl
  | cons c p ih =>
    by_cases hc : spaceOrTab c
    · have hnot : (!crOrNewline c) := by
        obtain rfl | rfl : c = 32 ∨ c = 9 := by simpa [spaceOrTab] using hc
        all_goals rfl
      rw [dropWhile_cons_of_pos hc, ih, line, line, takeWhile_cons, if_pos hnot,
        dropWhile_cons_of_pos hc]
    · rw [dropWhile_cons_of_neg hc, line, takeWhile_cons]
      split_ifs
      · rw [dropWhile_cons_of_neg hc]
      · rfl

theorem httpHeaderStrVal_some {buf key : CString} (h : nreStrcasestr buf key = some p)
    (keylen : Nat) (valueLen : Int) : (httpHeaderStrVal buf key keylen valueLen).2 =
      ((line (p.drop keylen)).dropWhile spaceOrTab).take (valueLen - 1).toNat ++ [0] := by
  unfold httpHeaderStrVal
  rw [h, ← line_dropWhile]
  dsimp only
  cases (p.drop keylen).dropWhile spaceOrTab with
  | nil => simp [line]
  | cons c temp =>
    dsimp only
    split_ifs with hc
    · simp [line, hc]
    · rw [copyValue_eq]

/-- A lookup does what it is for just when the buffer for the value is not empty, the first
occurrence of the key has its first character as it is, and no blanks behind the value are
copied. -/
theorem looks_up_iff (buf key : CString) (hkey : key.val ≠ []) (hint : key.val.length ≤ 2 ^ 31)
    (valueLen : Int) : LooksUp buf key valueLen ↔
      1 ≤ valueLen ∧ (∀ p ∈ find key.val buf.val, p.head? = key.val.head?) ∧
      ∀ p ∈ find key.val buf.val,
        (line (p.drop key.val.length)).dropWhile spaceOrTab = headerValue buf key ∨
          (valueLen - 1).toNat ≤ (headerValue buf key).length := by
  rw [← find_eq_iff buf key hkey hint]
  have hvalue : ∀ p, nreStrcasestr buf key = some p → find key.val buf.val = some p →
      ((httpHeaderStrVal buf key key.val.length valueLen).2 =
        (headerValue buf key).take (valueLen - 1).toNat ++ [0] ↔
      (line (p.drop key.val.length)).dropWhile spaceOrTab = headerValue buf key ∨
        (valueLen - 1).toNat ≤ (headerValue buf key).length) := by
    intro p hp hfind
    have hheader : headerValue buf key = trimmed (line (p.drop key.val.length)) := by
      rw [headerValue, hfind]
    rw [httpHeaderStrVal_some hp, append_left_inj, hheader]
    exact copied_iff ( rdropWhile_prefix _ _) _
  constructor
  · rintro ⟨position, -, value, bound⟩
    refine ⟨?_, position, fun p hp => ?_⟩
    · rw [value, length_append, length_singleton] at bound
      omega
    · exact (hvalue p (position.trans hp) hp).mp value
  · rintro ⟨hroom, position, hblanks⟩
    have value : (httpHeaderStrVal buf key key.val.length valueLen).2 =
        (headerValue buf key).take (valueLen - 1).toNat ++ [0] := by
      cases hp : find key.val buf.val with
      | none =>
        rw [httpHeaderStrVal, position, hp, headerValue, hp, take_nil]
        rfl
      | some p => exact (hvalue p (position.trans hp) hp).mpr (hblanks p hp)
    refine ⟨position, ?_, value, ?_⟩
    · rw [httpCheckHeaderField, position, Option.isSome_iff_ne_none]
    · rw [value, length_append, length_singleton, length_take]
      omega

theorem looks_up_iff_field : LooksUp ⟨[65, 58, 32, 98, 10, 67, 79, 58, 32, 120], by decide⟩
      ⟨[67, 111, 58, 32], by decide⟩ 8 :=
  (looks_up_iff _ _ (by decide) (by decide) 8).mpr (by decide)

/-- In `"co: x"` the field `"Co: "` is not found. -/
theorem other_case_not_found : let buf : CString := ⟨[99, 111, 58, 32, 120], by decide⟩
    let key : CString := ⟨[67, 111, 58, 32], by decide⟩
    find key.val buf.val = some buf.val ∧ nreStrcasestr buf key = none ∧
      httpCheckHeaderField buf key = false ∧
      httpHeaderStrVal buf key 4 8 = (false, [0]) ∧ headerValue buf key = [120] ∧
      ¬ LooksUp buf key 8 := by
  intro buf key
  refine ⟨by decide, by decide, by decide, by decide, by decide, fun h => ?_⟩
  exact absurd h.position (by decide)

end Mtcp.HttpHeaders
