import Fog05.Conc.Ledger

/-! Readers–writer locks: the guards that are out, and who has them. A guard to write is out
alone; which guard each holder has is kept in a list beside the lock. -/

namespace Conc

/-- How a lock is taken: to read, beside other readers, or to write, alone. -/
inductive Mode
  | read
  | write
  deriving DecidableEq

/-- How many guards to read are out, and whether the one to write is. -/
structure RwLock where
  readers : ℕ
  writer : Bool
  alone : writer = true → readers = 0

namespace RwLock

def free : RwLock := ⟨0, false, fun _ => rfl⟩

def acquire : Mode → RwLock → Option RwLock
  | .read, ⟨n, false, _⟩ => some ⟨n + 1, false, fun h => by cases h⟩
  | .write, ⟨0, false, _⟩ => some ⟨0, true, fun _ => rfl⟩
  | _, _ => none

def release : Mode → RwLock → RwLock
  | .read, ⟨n, b, h⟩ => ⟨n - 1, b, fun hb => by rw [h hb]⟩
  | .write, ⟨n, _, _⟩ => ⟨n, false, fun h => by cases h⟩

/-- Holder by holder the guard that it has: there are as many of each kind as are out. -/
structure Counts (l : RwLock) (held : List (Option Mode)) : Prop where
  readers : held.count (some .read) = l.readers
  writer : held.count (some .write) = l.writer.toNat

variable {l l' : RwLock} {held : List (Option Mode)} {i j : ℕ} {m m' : Mode}

theorem counts_free : free.Counts [] := ⟨rfl, rfl⟩

theorem Counts.append (h : l.Counts held) : l.Counts (held ++ [none]) :=
  ⟨by simp [h.readers], by simp [h.writer]⟩

theorem Counts.leave (h : l.Counts held) (hi : held[i]? = some none) :
    l.Counts (held.eraseIdx i) := by
  have hr := count_eraseIdx_add hi (some Mode.read)
  have hw := count_eraseIdx_add hi (some Mode.write)
  exact ⟨by simpa [h.readers] using hr, by simpa [h.writer] using hw⟩

theorem Counts.acquire (h : l.Counts held) (hi : held[i]? = some none)
    (hl : l.acquire m = some l') : l'.Counts (held.set i (some m)) := by
  have hr := count_set_add hi (some m) (some Mode.read)
  have hw := count_set_add hi (some m) (some Mode.write)
  rw [h.readers] at hr
  rw [h.writer] at hw
  obtain ⟨n, b, halone⟩ := l
  cases m with
  | read =>
    cases b with
    | true => cases hl
    | false => cases hl; exact ⟨by simpa using hr, by simpa using hw⟩
  | write =>
    cases b with
    | true => cases n <;> cases hl
    | false =>
      cases n with
      | zero => cases hl; exact ⟨by simpa using hr, by simpa using hw⟩
      | succ n => cases hl

theorem Counts.release (h : l.Counts held) (hi : held[i]? = some (some m)) :
    (l.release m).Counts (held.set i none) := by
  have hr := count_set_add hi none (some Mode.read)
  have hw := count_set_add hi none (some Mode.write)
  rw [h.readers] at hr
  rw [h.writer] at hw
  obtain ⟨n, b, halone⟩ := l
  cases m with
  | read =>
    refine ⟨?_, by simpa [RwLock.release] using hw⟩
    simp only [RwLock.release]
    simp at hr
    omega
  | write =>
    refine ⟨by simpa [RwLock.release] using hr, ?_⟩
    cases b with
    | true => simpa [RwLock.release] using hw
    | false => simp at hw

theorem Counts.writing (h : l.Counts held) (hi : held[i]? = some (some .write)) :
    l.writer = true := by
  have hpos : 0 < held.count (some .write) := List.count_pos_iff.2 (List.mem_of_getElem? hi)
  rw [h.writer] at hpos
  cases hb : l.writer with
  | true => rfl
  | false => rw [hb] at hpos; cases hpos

theorem Counts.reading (h : l.Counts held) (hi : held[i]? = some (some .read)) :
    0 < l.readers := by
  rw [← h.readers]
  exact List.count_pos_iff.2 (List.mem_of_getElem? hi)

theorem Counts.exclusive (h : l.Counts held) (hi : held[i]? = some (some .write))
    (hj : held[j]? = some (some m)) : j = i := by
  have hone := h.writing hi
  cases m with
  | read =>
    have hpos := h.reading hj
    rw [l.alone hone] at hpos
    cases hpos
  | write =>
    by_contra hij
    have hcount := count_eraseIdx_add hi (some Mode.write)
    rw [h.writer, hone, if_pos (beq_self_eq_true _)] at hcount
    have hzero : (held.eraseIdx i).count (some .write) = 0 := Nat.succ.inj hcount
    exact List.count_eq_zero.1 hzero (List.mem_eraseIdx_iff_getElem?.2 ⟨j, hij, hj⟩)

/-- Who has to wait for a guard waits for one that is out: the one to write, if it is to read
itself. -/
theorem Counts.waits (h : l.Counts held) (hl : l.acquire m = none) :
    ∃ (j : ℕ) (m' : Mode), held[j]? = some (some m') ∧ (m = .read → m' = .write) := by
  have hmem : ∀ m' : Mode, 0 < held.count (some m') → ∃ j : ℕ, held[j]? = some (some m') :=
    fun _ hpos => List.mem_iff_getElem?.1 (List.count_pos_iff.1 hpos)
  obtain ⟨n, b, halone⟩ := l
  cases b with
  | true =>
    obtain ⟨j, hj⟩ := hmem .write (by rw [h.writer]; exact Nat.one_pos)
    exact ⟨j, .write, hj, fun _ => rfl⟩
  | false =>
    cases m with
    | read => cases hl
    | write =>
      cases n with
      | zero => cases hl
      | succ n =>
        obtain ⟨j, hj⟩ := hmem .read (by rw [h.readers]; exact Nat.succ_pos n)
        exact ⟨j, .read, hj, fun hm => by cases hm⟩

theorem Counts.refuses (h : l.Counts held) (hj : held[j]? = some (some m'))
    (hm : m = .write ∨ m' = .write) : l.acquire m = none := by
  cases m' with
  | write =>
    have hone := h.writing hj
    obtain ⟨n, b, halone⟩ := l
    obtain rfl : b = true := hone
    cases m <;> cases n <;> rfl
  | read =>
    obtain rfl := hm.resolve_right fun h => by cases h
    have hpos := h.reading hj
    obtain ⟨n, b, halone⟩ := l
    cases n with
    | zero => cases hpos
    | succ n => cases b <;> rfl

end RwLock

end Conc
