import Blocklist.Proofs.Text.Utf8
import Mathlib.Algebra.Ring.Nat
import Mathlib.Data.List.Basic
-- A decoder in the middle of a character. Whatever bytes come, what it has decoded stays, and the
-- character gets its end or is replaced.
namespace Blocklist.Text

theorem toNat_ofNat {n : Nat} (h : n.isValidChar) : (Char.ofNat n).toNat = n := by
  rw [Char.ofNat, dif_pos h]
  rfl

namespace Partial

variable {p : Partial} {a b : Nat}

-- The bits with those of one more byte
def read (p : Partial) (b : Nat) : Nat := p.code * 0x40 + (b - 0x80)

def next (p : Partial) (b : Nat) : Partial := ⟨p.owed - 1, 0x80, 0xBF, p.read b⟩

-- The codes that the character can still get start here, and lie below the bound
def least (p : Partial) : Nat := 64 ^ (p.owed - 1) * p.read p.low

def bound (p : Partial) : Nat := 64 ^ (p.owed - 1) * (p.read p.high + 1)

theorem read_mono (h : a ≤ b) : p.read a ≤ p.read b :=
  Nat.add_le_add_left (Nat.sub_le_sub_right h 0x80) _

theorem read_next : (p.next a).read b = p.read a * 0x40 + (b - 0x80) := rfl

theorem pow_pred (h : 1 < p.owed) : 64 ^ (p.owed - 1) = 64 ^ (p.owed - 1 - 1) * 64 := by
  rw [← Nat.pow_succ, Nat.succ_eq_add_one, Nat.sub_add_cancel (by omega)]

theorem least_next (h : 1 < p.owed) : (p.next b).least = 64 ^ (p.owed - 1) * p.read b := by
  have hlow : (p.next b).read 0x80 = 64 * p.read b := by
    rw [read_next, Nat.sub_self, Nat.add_zero, Nat.mul_comm]
  rw [pow_pred h, Nat.mul_assoc, ← hlow]
  rfl

theorem bound_next (h : 1 < p.owed) : (p.next b).bound = 64 ^ (p.owed - 1) * (p.read b + 1) := by
  have hhigh : (p.next b).read 0xBF + 1 = 64 * (p.read b + 1) := by
    rw [read_next]
    omega
  rw [pow_pred h, Nat.mul_assoc, ← hhigh]
  rfl

-- Whatever bytes within the limits come, they make a character beyond ASCII
structure Sound (p : Partial) : Prop where
  owed : 0 < p.owed
  low : 0x80 ≤ p.low
  beyond : 0x80 ≤ p.least
  valid : p.bound ≤ 0xD800 ∨ 0xE000 ≤ p.least ∧ p.bound ≤ 0x110000

theorem sound_mk {owed low high code : Nat} (howed : 0 < owed) (hlow : 0x80 ≤ low)
    (hbeyond : 0x80 ≤ 64 ^ (owed - 1) * (code * 0x40 + (low - 0x80)))
    (hvalid : 64 ^ (owed - 1) * (code * 0x40 + (high - 0x80) + 1) ≤ 0xD800 ∨
      0xE000 ≤ 64 ^ (owed - 1) * (code * 0x40 + (low - 0x80)) ∧
        64 ^ (owed - 1) * (code * 0x40 + (high - 0x80) + 1) ≤ 0x110000) :
    (Partial.mk owed low high code).Sound :=
  ⟨howed, hlow, hbeyond, hvalid⟩

theorem Sound.last (h : p.Sound) (howed : p.owed ≤ 1) (hlow : p.low ≤ b) (hhigh : b ≤ p.high) :
    0x80 ≤ (Char.ofNat (p.read b)).toNat := by
  obtain ⟨-, -, hbeyond, hvalid⟩ := h
  have hone : 64 ^ (p.owed - 1) = 1 := by rw [Nat.sub_eq_zero_of_le howed, Nat.pow_zero]
  rw [least, hone, Nat.one_mul] at hbeyond hvalid
  rw [bound, hone, Nat.one_mul] at hvalid
  have hleast : p.read p.low ≤ p.read b := read_mono hlow
  have hgreatest : p.read b ≤ p.read p.high := read_mono hhigh
  have hchar : (p.read b).isValidChar := by
    unfold Nat.isValidChar
    omega
  rw [toNat_ofNat hchar]
  exact Nat.le_trans hbeyond hleast

theorem Sound.next (h : p.Sound) (howed : 1 < p.owed) (hlow : p.low ≤ b) (hhigh : b ≤ p.high) :
    (p.next b).Sound := by
  obtain ⟨-, -, hbeyond, hvalid⟩ := h
  have hleast : p.least ≤ (p.next b).least := by
    rw [least_next howed]
    exact Nat.mul_le_mul_left _ (read_mono hlow)
  have hbound : (p.next b).bound ≤ p.bound := by
    rw [bound_next howed]
    exact Nat.mul_le_mul_left _ (Nat.add_le_add_right (read_mono hhigh) 1)
  refine ⟨Nat.sub_pos_of_lt howed, Nat.le_refl _, Nat.le_trans hbeyond hleast, ?_⟩
  omega

end Partial

namespace Decoder

variable {d : Decoder}

-- What has been read of a character can only become one beyond ASCII
def Sound (d : Decoder) : Prop := ∀ p ∈ d.pending, p.Sound

theorem sound_start : start.Sound := nofun

theorem sound_of_none (h : d.pending = none) : d.Sound := by
  intro p hp
  rw [h] at hp
  cases hp

theorem sound_of_some {p : Partial} (h : d.pending = some p) (hp : p.Sound) : d.Sound := by
  intro q hq
  obtain rfl : p = q := Option.some_inj.1 (h.symm.trans hq)
  exact hp

-- A first byte is a character, is none, or begins one
theorem lead_cases (d : Decoder) (b : Nat) :
    (∃ c, d.lead b = d.push c) ∨ d.lead b = d.replace ∨
      ∃ p : Partial, p.Sound ∧ d.lead b = { d with pending := some p } := by
  unfold lead
  split
  · exact .inl ⟨_, rfl⟩
  split
  · exact .inr (.inl rfl)
  split
  · refine .inr (.inr ⟨_, Partial.sound_mk (by decide) (by decide) ?_ ?_, rfl⟩)
    · omega
    · omega
  split
  · refine .inr (.inr ⟨_, Partial.sound_mk (by decide) ?_ ?_ ?_, rfl⟩)
    · split <;> omega
    · split <;> omega
    · split <;> split <;> omega
  split
  · refine .inr (.inr ⟨_, Partial.sound_mk (by decide) ?_ ?_ ?_, rfl⟩)
    · split <;> omega
    · split <;> omega
    · split <;> split <;> omega
  · exact .inr (.inl rfl)

theorem sound_lead (d : Decoder) (b : Nat) : (d.lead b).Sound := by
  rcases d.lead_cases b with ⟨c, h⟩ | h | ⟨p, hp, h⟩
  · exact sound_of_none (by rw [h]; rfl)
  · exact sound_of_none (by rw [h]; rfl)
  · exact sound_of_some (by rw [h]) hp

-- A byte within the limits goes on with the character, any other breaks it off
theorem step_some {p : Partial} (h : d.pending = some p) (byte : UInt8) :
    d.step byte =
      if p.low ≤ byte.toNat ∧ byte.toNat ≤ p.high then
        if p.owed ≤ 1 then d.push (Char.ofNat (p.read byte.toNat))
        else { d with pending := some (p.next byte.toNat) }
      else d.replace.lead byte.toNat := by
  unfold step
  simp only [h, Bool.and_eq_true, decide_eq_true_eq]
  rfl

theorem sound_step (h : d.Sound) (byte : UInt8) : (d.step byte).Sound := by
  cases hd : d.pending with
  | none =>
      rw [step_none hd]
      exact sound_lead d byte.toNat
  | some p =>
      rw [step_some hd]
      split
      · split
        · exact sound_of_none rfl
        · exact sound_of_some rfl ((h p hd).next (by omega) (by omega) (by omega))
      · exact sound_lead _ _

theorem sound_foldl_step (h : d.Sound) (bytes : List UInt8) : (bytes.foldl step d).Sound := by
  induction bytes generalizing d with
  | nil => exact h
  | cons byte bytes ih => exact ih (sound_step h byte)

theorem chars_lead (d : Decoder) (b : Nat) : d.chars <:+ (d.lead b).chars := by
  rcases d.lead_cases b with ⟨c, h⟩ | h | ⟨p, -, h⟩
  · rw [h]
    exact List.suffix_cons _ _
  · rw [h]
    exact List.suffix_cons _ _
  · exact ⟨[], (congrArg chars h).symm⟩

theorem chars_step (d : Decoder) (byte : UInt8) : d.chars <:+ (d.step byte).chars := by
  cases hd : d.pending with
  | none =>
      rw [step_none hd]
      exact chars_lead d byte.toNat
  | some p =>
      rw [step_some hd]
      split
      · split
        · exact List.suffix_cons _ _
        · exact List.suffix_rfl
      · exact (List.suffix_cons _ _).trans (chars_lead d.replace byte.toNat)

theorem chars_finish (d : Decoder) : d.chars <:+ d.finish.chars := by
  unfold finish
  split
  · exact List.suffix_cons _ _
  · exact List.suffix_rfl

-- What has been decoded stays, whatever bytes come
theorem chars_foldl_step (d : Decoder) (bytes : List UInt8) :
    d.chars <:+ (bytes.foldl step d).finish.chars := by
  induction bytes generalizing d with
  | nil => exact chars_finish d
  | cons byte bytes ih => exact (chars_step d byte).trans (ih (d.step byte))

-- A character that has begun gets its end or is replaced
theorem chars_foldl_step_some {p : Partial} (h : d.pending = some p) (hp : p.Sound)
    (bytes : List UInt8) :
    ∃ c, 0x80 ≤ c.toNat ∧ c :: d.chars <:+ (bytes.foldl step d).finish.chars := by
  induction bytes generalizing d p with
  | nil =>
      refine ⟨'\uFFFD', by decide, ?_⟩
      rw [List.foldl_nil, finish, h]
      exact List.suffix_rfl
  | cons byte bytes ih =>
      rw [List.foldl_cons, step_some h]
      split
      · split
        · refine ⟨Char.ofNat (p.read byte.toNat), hp.last (by omega) (by omega) (by omega), ?_⟩
          exact chars_foldl_step (d.push _) bytes
        · have hnext : (p.next byte.toNat).Sound := hp.next (by omega) (by omega) (by omega)
          exact @ih { d with pending := some (p.next byte.toNat) } _ rfl hnext
      · refine ⟨'\uFFFD', by decide, ?_⟩
        exact (chars_lead d.replace byte.toNat).trans (chars_foldl_step _ bytes)

-- Where bytes come, a character comes of them
theorem chars_foldl_step_of_ne_nil (h : d.pending = none) {bytes : List UInt8} (hne : bytes ≠ []) :
    ∃ c, c :: d.chars <:+ (bytes.foldl step d).finish.chars := by
  obtain ⟨byte, rest, rfl⟩ := List.exists_cons_of_ne_nil hne
  rw [List.foldl_cons, step_none h]
  rcases d.lead_cases byte.toNat with ⟨c, hlead⟩ | hlead | ⟨p, hp, hlead⟩
  · rw [hlead]
    exact ⟨c, chars_foldl_step (d.push c) rest⟩
  · rw [hlead]
    exact ⟨'\uFFFD', chars_foldl_step d.replace rest⟩
  · obtain ⟨c, -, hsuffix⟩ :=
      @chars_foldl_step_some { d with pending := some p } p rfl hp rest
    rw [hlead]
    exact ⟨c, hsuffix⟩

-- A character that is cut is replaced, whatever its length, by one U+FFFD. Had the first bytes
-- made a character, the others would make a second one.
theorem chars_of_cut (h : d.pending = none) {c : Char} {first rest : List UInt8}
    (hsplit : first ++ rest = String.utf8EncodeChar c) (hfirst : first ≠ []) (hrest : rest ≠ []) :
    (first.foldl step d).finish.chars = '\uFFFD' :: d.chars := by
  have hsound := sound_foldl_step (sound_of_none h) first
  have hwhole : rest.foldl step (first.foldl step d) = d.push c := by
    rw [← List.foldl_append, hsplit, foldl_step_encodeChar h]
  obtain ⟨c₁, hbegun⟩ := chars_foldl_step_of_ne_nil h hfirst
  generalize first.foldl step d = e at hsound hwhole hbegun ⊢
  cases he : e.pending with
  | none =>
      exfalso
      obtain ⟨c₂, hagain⟩ := chars_foldl_step_of_ne_nil he hrest
      have hfinish : e.finish = e := by
        rw [finish, he]
        rfl
      rw [hwhole] at hagain
      rw [hfinish] at hbegun
      have hmore : e.chars.length + 1 ≤ d.chars.length + 1 := hagain.length_le
      have hless : d.chars.length + 1 ≤ e.chars.length := hbegun.length_le
      omega
  | some p =>
      obtain ⟨c₂, -, hend⟩ := chars_foldl_step_some he (hsound p he) rest
      have hfinish : e.finish.chars = '\uFFFD' :: e.chars := by
        rw [finish, he]
        rfl
      rw [hwhole] at hend
      rw [hfinish] at hbegun ⊢
      have hsame : c₁ :: d.chars = '\uFFFD' :: e.chars := hbegun.eq_of_length_le hend.length_le
      rw [(List.cons.inj hsame).2]

-- An ASCII byte is no part of any other character
theorem step_ascii (h : d.Sound) {byte : UInt8} (hbyte : byte.toNat < 0x80) :
    d.step byte = d.finish.push (Char.ofNat byte.toNat) := by
  cases hd : d.pending with
  | none =>
      rw [step_none hd, lead_one hbyte, finish, hd]
      rfl
  | some p =>
      have hlow : 0x80 ≤ p.low := (h p hd).low
      rw [step_some hd, if_neg (by omega), lead_one hbyte, finish, hd]
      rfl

end Decoder

end Blocklist.Text
