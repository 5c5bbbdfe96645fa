import Mathlib.Data.List.Forall2

/-! Format strings cut at their separators, and selectors, in which one segment
stands for any other. Two templates that differ in a text never match, whatever
they are filled with. -/

namespace Conc

variable {σ : Type}

/-- A segment of a format string. -/
inductive Chunk (σ : Type)
  | text (s : σ)
  | arg
  deriving DecidableEq

/-- Different texts: no way to fill the holes makes the segments equal. -/
def Chunk.Differ : Chunk σ → Chunk σ → Prop
  | .text s, .text s' => s ≠ s'
  | _, _ => False

instance [DecidableEq σ] : (c c' : Chunk σ) → Decidable (c.Differ c')
  | .text _, .text _ => inferInstanceAs (Decidable (_ ≠ _))
  | .text _, .arg | .arg, .text _ | .arg, .arg => isFalse id

theorem Chunk.Differ.texts {c c' : Chunk σ} (h : c.Differ c') :
    ∃ s s', c = .text s ∧ c' = .text s' ∧ s ≠ s' := by
  cases c with
  | arg => exact h.elim
  | text s =>
    cases c' with
    | arg => exact h.elim
    | text s' => exact ⟨s, s', rfl, rfl, h⟩

abbrev Template (σ : Type) := List (Chunk σ)

/-- A selector matches a path segment by segment. -/
def Matches (star : σ) (selector path : List σ) : Prop :=
  List.Forall₂ (fun s p => s = star ∨ s = p) selector path

section Matches

variable {star : σ}

@[simp] theorem matches_nil : Matches star [] [] := List.Forall₂.nil

@[simp] theorem not_matches_nil_cons (p : σ) (path : List σ) : ¬ Matches star [] (p :: path) :=
  fun h => nomatch h

@[simp] theorem not_matches_cons_nil (s : σ) (sel : List σ) : ¬ Matches star (s :: sel) [] :=
  fun h => nomatch h

@[simp] theorem matches_cons {s p : σ} {sel path : List σ} :
    Matches star (s :: sel) (p :: path) ↔ (s = star ∨ s = p) ∧ Matches star sel path :=
  List.forall₂_cons

theorem matches_self (path : List σ) : Matches star path path :=
  List.forall₂_same.2 fun _ _ => Or.inr rfl

instance decidableMatches [DecidableEq σ] (star : σ) :
    (sel path : List σ) → Decidable (Matches star sel path)
  | [], [] => isTrue matches_nil
  | [], _ :: _ => isFalse (not_matches_nil_cons _ _)
  | _ :: _, [] => isFalse (not_matches_cons_nil _ _)
  | _ :: sel, _ :: path =>
    have := decidableMatches star sel path
    decidable_of_iff _ matches_cons.symm

theorem Matches.trans {sel sel' path : List σ} (h : Matches star sel sel')
    (h' : Matches star sel' path) : Matches star sel path := by
  induction h generalizing path with
  | nil => exact h'
  | cons hs _ ih =>
    cases h' with
    | cons hs' hm =>
      refine matches_cons.2 ⟨?_, ih hm⟩
      rcases hs with rfl | rfl
      · exact Or.inl rfl
      · exact hs'

end Matches

namespace Template

/-- The segments that come of filling the holes in order. -/
def format : Template σ → List σ → List σ
  | [], _ => []
  | .text s :: t, args => s :: format t args
  | .arg :: t, a :: args => a :: format t args
  | .arg :: _, [] => []

def arity : Template σ → ℕ
  | [] => 0
  | .text _ :: t => arity t
  | .arg :: t => arity t + 1

def Literal (star : σ) (t : Template σ) : Prop := Chunk.text star ∉ t

instance [DecidableEq σ] (star : σ) (t : Template σ) : Decidable (Literal star t) :=
  inferInstanceAs (Decidable (_ ∉ _))

/-- The templates differ in their lengths or in a text. -/
def Clash : Template σ → Template σ → Prop
  | [], [] => False
  | c :: t, c' :: t' => c.Differ c' ∨ Clash t t'
  | _, _ => True

instance decidableClash [DecidableEq σ] : (t t' : Template σ) → Decidable (Clash t t')
  | [], [] => isFalse id
  | _ :: t, _ :: t' =>
    have := decidableClash t t'
    inferInstanceAs (Decidable (_ ∨ _))
  | [], _ :: _ => isTrue trivial
  | _ :: _, [] => isTrue trivial

variable {star : σ} {t t' : Template σ} {args args' : List σ}

theorem format_cons {c : Chunk σ} (h : args.length = arity (c :: t)) :
    ∃ s rest, format (c :: t) args = s :: t.format rest ∧ rest.length = t.arity ∧
      ∀ x, c = .text x → s = x := by
  rcases c with s | _
  · exact ⟨s, args, rfl, h, fun x hx => Chunk.text.inj hx⟩
  · obtain ⟨a, rest, rfl⟩ := List.exists_cons_of_length_eq_add_one h
    exact ⟨a, rest, rfl, Nat.succ.inj h, fun x hx => nomatch hx⟩

theorem not_matches_of_clash (h : Clash t t') (ht : Literal star t)
    (ha : args.length = t.arity) (ha' : args'.length = t'.arity) :
    ¬ Matches star (t.format args) (t'.format args') := by
  induction t generalizing t' args args' with
  | nil =>
    cases t' with
    | nil => exact h.elim
    | cons c' t' =>
      obtain ⟨s', rest', he', -, -⟩ := format_cons ha'
      rw [he']
      exact not_matches_nil_cons _ _
  | cons c t ih =>
    obtain ⟨s, rest, he, hr, hs⟩ := format_cons ha
    rw [he]
    cases t' with
    | nil => exact not_matches_cons_nil _ _
    | cons c' t' =>
      obtain ⟨s', rest', he', hr', hs'⟩ := format_cons ha'
      rw [he', matches_cons]
      rintro ⟨hseg, hm⟩
      rcases h with hd | hcl
      · obtain ⟨x, x', rfl, rfl, hne⟩ := hd.texts
        obtain rfl := hs x rfl
        obtain rfl := hs' x' rfl
        exact hseg.elim (fun hstar => ht (by simp [hstar])) hne
      · exact ih hcl (fun hmem => ht (List.mem_cons_of_mem _ hmem)) hr hr' hm

theorem matches_format (ha : args.length = t.arity) (ha' : args'.length = t.arity) :
    Matches star (t.format args) (t.format args') ↔ Matches star args args' := by
  induction t generalizing args args' with
  | nil => simp [List.length_eq_zero_iff.1 ha, List.length_eq_zero_iff.1 ha', format]
  | cons c t ih =>
    rcases c with s | _
    · rw [format, format, matches_cons, ih ha ha']
      simp
    · obtain ⟨a, args, rfl⟩ := List.exists_cons_of_length_eq_add_one ha
      obtain ⟨a', args', rfl⟩ := List.exists_cons_of_length_eq_add_one ha'
      rw [format, format, matches_cons, matches_cons, ih (Nat.succ.inj ha) (Nat.succ.inj ha')]

end Template

end Conc
