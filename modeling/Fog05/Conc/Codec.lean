import Mathlib.Data.Nat.Digits.Defs

/-! Codecs: encodings as bytes that are read back whatever bytes follow, so that encodings
can stand one after the other. -/

namespace Conc

structure Codec (α : Type) where
  encode : α → List UInt8
  decode : List UInt8 → Option (α × List UInt8)
  decode_encode : ∀ a rest, decode (encode a ++ rest) = some (a, rest)

namespace Codec

variable {α β : Type}

/-- The whole input is one encoding. -/
def decodeAll (c : Codec α) (buf : List UInt8) : Option α :=
  match c.decode buf with
  | some (a, []) => some a
  | _ => none

theorem decodeAll_encode (c : Codec α) (a : α) : c.decodeAll (c.encode a) = some a := by
  have h := c.decode_encode a []
  rw [List.append_nil] at h
  rw [decodeAll, h]

/-- Values are encoded as what `f` makes of them, from which `g` gets them back. -/
def along (c : Codec α) (f : β → α) (g : α → β) (h : ∀ b, g (f b) = b) : Codec β where
  encode b := c.encode (f b)
  decode buf := (c.decode buf).map fun x => (g x.1, x.2)
  decode_encode b rest := by simp [c.decode_encode, h]

def byte : Codec UInt8 where
  encode b := [b]
  decode
    | [] => none
    | b :: rest => some (b, rest)
  decode_encode _ _ := rfl

def prod (c : Codec α) (d : Codec β) : Codec (α × β) where
  encode x := c.encode x.1 ++ d.encode x.2
  decode buf := (c.decode buf).bind fun x => (d.decode x.2).map fun y => ((x.1, y.1), y.2)
  decode_encode x rest := by simp [List.append_assoc, c.decode_encode, d.decode_encode]

/-- The bytes of a number, from its digits: none of them is zero, which comes last. -/
def digitBytes (digits : List ℕ) : List UInt8 := digits.map (fun d => UInt8.ofNat (d + 1)) ++ [0]

def decodeNat : List UInt8 → Option (ℕ × List UInt8)
  | [] => none
  | b :: rest =>
      if b = 0 then some (0, rest)
      else (decodeNat rest).map fun x => (b.toNat - 1 + 255 * x.1, x.2)

theorem decodeNat_digitBytes {digits : List ℕ} (h : ∀ d ∈ digits, d < 255) (rest : List UInt8) :
    decodeNat (digitBytes digits ++ rest) = some (Nat.ofDigits 255 digits, rest) := by
  induction digits with
  | nil => rfl
  | cons d digits ih =>
    obtain ⟨hd, hdigits⟩ := List.forall_mem_cons.1 h
    have hbyte : (UInt8.ofNat (d + 1)).toNat = d + 1 := UInt8.toNat_ofNat_of_lt (Nat.succ_lt_succ hd)
    have hne : UInt8.ofNat (d + 1) ≠ 0 := fun h0 => by rw [h0] at hbyte; cases hbyte
    show decodeNat (UInt8.ofNat (d + 1) :: (digitBytes digits ++ rest)) = _
    rw [decodeNat, if_neg hne, ih hdigits, Option.map_some, hbyte, Nat.ofDigits_cons]
    rfl

def nat : Codec ℕ where
  encode n := digitBytes (Nat.digits 255 n)
  decode := decodeNat
  decode_encode n rest := by
    rw [decodeNat_digitBytes (fun _ hd => Nat.digits_lt_base (by decide) hd), Nat.ofDigits_digits]

def decodeMany (c : Codec α) : ℕ → List UInt8 → Option (List α × List UInt8)
  | 0, buf => some ([], buf)
  | n + 1, buf =>
      (c.decode buf).bind fun x => (c.decodeMany n x.2).map fun y => (x.1 :: y.1, y.2)

theorem decodeMany_encode (c : Codec α) (l : List α) (rest : List UInt8) :
    c.decodeMany l.length (l.flatMap c.encode ++ rest) = some (l, rest) := by
  induction l with
  | nil => rfl
  | cons a l ih => simp [decodeMany, List.append_assoc, c.decode_encode, ih]

def list (c : Codec α) : Codec (List α) where
  encode l := nat.encode l.length ++ l.flatMap c.encode
  decode buf := (nat.decode buf).bind fun x => c.decodeMany x.1 x.2
  decode_encode l rest := by
    rw [List.append_assoc, nat.decode_encode]
    exact c.decodeMany_encode l rest

def option (c : Codec α) : Codec (Option α) :=
  c.list.along Option.toList List.head? fun o => by cases o <;> rfl

def string : Codec String :=
  nat.list.along (fun s => s.toList.map Char.toNat) (fun l => String.ofList (l.map Char.ofNat))
    fun s => by simp [Function.comp_def]

def int : Codec ℤ :=
  (nat.prod nat).along (fun i => (i.toNat, (-i).toNat)) (fun x => (x.1 : ℤ) - x.2) fun i => by
    omega

end Codec

end Conc
