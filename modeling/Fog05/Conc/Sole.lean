import Fog05.Conc.Pool

/-! Pools in which one thread at most is past the idle state of a discipline: what it
takes for a duty to be with one thread at a time, and how it is handed on. -/

namespace Conc

variable {C P : Type} {R : C → Type} {A : P → Type} {ε Ch E S Q : Type}

/-- What is left of the thread stays within the discipline from state `q` on. -/
def Thread.Keeps (D : Discipline R A ε Q) (q : Q) (t : Thread R A ε) : Prop :=
  t.prog.Follows D (fun _ _ => True) q

/-- All threads are idle but for one, of the procedure and in the state that are given. -/
inductive Sole (D : Discipline R A ε Q) (q₀ : Q) : List (Thread R A ε) → Option (P × Q) → Prop
  | nil : Sole D q₀ [] none
  | idle {t l x} : t.Keeps D q₀ → Sole D q₀ l x → Sole D q₀ (t :: l) x
  | busy {t l q} : t.Keeps D q → Sole D q₀ l none → Sole D q₀ (t :: l) (some (t.proc, q))

/-- What becomes of the duty when the `i`-th thread, which has it or is idle, goes on as
another or ends. -/
inductive Sole.At (D : Discipline R A ε Q) (q₀ : Q) (l : List (Thread R A ε)) (i : ℕ)
    (t : Thread R A ε) (x : Option (P × Q)) : Prop
  | idle : t.Keeps D q₀ → (∀ t', t'.Keeps D q₀ → Sole D q₀ (l.set i t') x) →
      (∀ t' q, x = none → t'.Keeps D q → Sole D q₀ (l.set i t') (some (t'.proc, q))) →
      Sole D q₀ (l.eraseIdx i) x → At D q₀ l i t x
  | busy {q} : x = some (t.proc, q) → t.Keeps D q →
      (∀ t' q', t'.Keeps D q' → Sole D q₀ (l.set i t') (some (t'.proc, q'))) →
      Sole D q₀ (l.eraseIdx i) none → At D q₀ l i t x

namespace Sole

variable {D : Discipline R A ε Q} {q₀ q : Q} {l : List (Thread R A ε)} {x : Option (P × Q)}
  {t : Thread R A ε} {p : P} {i : ℕ}

theorem append_idle (h : Sole D q₀ l x) (ht : t.Keeps D q₀) : Sole D q₀ (l ++ [t]) x := by
  induction h with
  | nil => exact .idle ht .nil
  | idle h _ ih => exact .idle h ih
  | busy h _ ih => exact .busy h ih

theorem append_busy (h : Sole D q₀ l none) (ht : t.Keeps D q) :
    Sole D q₀ (l ++ [t]) (some (t.proc, q)) := by
  generalize hx : (none : Option (P × Q)) = x at h
  induction h with
  | nil => exact .busy ht .nil
  | idle h _ ih => exact .idle h (ih hx)
  | busy => cases hx

theorem release (h : Sole D q₀ l (some (p, q₀))) : Sole D q₀ l none := by
  generalize hx : some (p, q₀) = x at h
  induction h with
  | nil => exact .nil
  | idle h _ ih => exact .idle h (ih hx)
  | busy h hl _ =>
    cases hx
    exact .idle h hl

theorem exists_busy (h : Sole D q₀ l (some (p, q))) : ∃ t ∈ l, t.proc = p := by
  generalize hx : some (p, q) = x at h
  induction h with
  | nil => cases hx
  | idle _ _ ih =>
    obtain ⟨t, ht, hp⟩ := ih hx
    exact ⟨t, List.mem_cons_of_mem _ ht, hp⟩
  | @busy t l q h hl _ =>
    cases hx
    exact ⟨t, List.mem_cons_self, rfl⟩

theorem at_index (h : Sole D q₀ l x) (hi : l[i]? = some t) : Sole.At D q₀ l i t x := by
  induction h generalizing i with
  | nil => cases hi
  | @idle u l x hu hl ih =>
    cases i with
    | zero =>
      cases hi
      exact .idle hu (fun t' ht' => .idle ht' hl) (fun t' q hx ht' => .busy ht' (hx ▸ hl)) hl
    | succ i =>
      cases ih hi with
      | idle ht hset hbusy herase =>
        exact .idle ht (fun t' ht' => .idle hu (hset t' ht'))
          (fun t' q hx ht' => .idle hu (hbusy t' q hx ht')) (.idle hu herase)
      | busy hx ht hset herase =>
        exact .busy hx ht (fun t' q' ht' => .idle hu (hset t' q' ht')) (.idle hu herase)
  | @busy u l q hu hl ih =>
    cases i with
    | zero =>
      cases hi
      exact .busy rfl hu (fun t' q' ht' => .busy ht' hl) hl
    | succ i =>
      cases ih hi with
      | idle ht hset _ herase =>
        exact .idle ht (fun t' ht' => .busy hu (hset t' ht')) (fun t' q hx => by cases hx)
          (.busy hu herase)
      | busy hx => cases hx

end Sole

end Conc
