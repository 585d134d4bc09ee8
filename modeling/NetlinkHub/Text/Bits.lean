import Mathlib.Data.List.Induction
import Mathlib.Tactic.Ring

/-! # Numbers as bits, and bits in groups

The most significant bit stands first. `groups` cuts a list of bits into whole groups of one width and
drops what is left over; it can be read from the front (`groups_append`) and from the end
(`groups_append_of_lt`, `groups_append_of_le`). -/

namespace Bits

/-- The lowest `width` bits of a number. -/
def bits : Nat → Nat → List Bool
  | 0, _ => []
  | width + 1, n => bits width (n / 2) ++ [decide (n % 2 = 1)]

/-- The number that bits spell. -/
def value (bs : List Bool) : Nat := bs.foldl (fun n b => 2 * n + b.toNat) 0

/-- The whole groups of a list, `width` bits each. -/
def groups (width : Nat) (bs : List Bool) : List (List Bool) :=
  (List.range (bs.length / width)).map fun i => (bs.drop (i * width)).take width

/-! ## Numbers and bits -/

@[simp] theorem length_bits (width n : Nat) : (bits width n).length = width := by
  induction width generalizing n with
  | zero => rfl
  | succ width ih => simp [bits, ih]

/-- The upper bits stand before the lower ones. -/
theorem bits_add (v w n : Nat) : bits (v + w) n = bits v (n / 2 ^ w) ++ bits w n := by
  induction w generalizing n with
  | zero => simp [bits]
  | succ w ih =>
    have hdiv : n / 2 / 2 ^ w = n / 2 ^ (w + 1) := by rw [Nat.div_div_eq_div_mul, Nat.pow_succ']
    rw [← Nat.add_assoc, bits, ih, hdiv, bits, List.append_assoc]

theorem bits_mod (width n : Nat) : bits width (n % 2 ^ width) = bits width n := by
  induction width generalizing n with
  | zero => rfl
  | succ width ih =>
    have hhalf : n % 2 ^ (width + 1) / 2 = n / 2 % 2 ^ width := by
      rw [Nat.pow_succ', Nat.mod_mul_right_div_self]
    have hlow : n % 2 ^ (width + 1) % 2 = n % 2 :=
      Nat.mod_mod_of_dvd n (Dvd.intro_left _ (Nat.pow_succ ..).symm)
    rw [bits, bits, hhalf, hlow, ih]

/-- Two numbers side by side are one. -/
theorem bits_append_bits (v w m n : Nat) : bits v m ++ bits w n = bits (v + w) (m * 2 ^ w + n % 2 ^ w) := by
  have hupper : (m * 2 ^ w + n % 2 ^ w) / 2 ^ w = m := by
    rw [Nat.add_comm, Nat.add_mul_div_right _ _ (Nat.two_pow_pos w), Nat.div_eq_of_lt (Nat.mod_lt _ (Nat.two_pow_pos w)),
      Nat.zero_add]
  have hlower : (m * 2 ^ w + n % 2 ^ w) % 2 ^ w = n % 2 ^ w := by
    rw [Nat.add_comm, Nat.add_mul_mod_self_right, Nat.mod_mod]
  rw [bits_add, hupper, ← bits_mod w (_ + _), hlower, bits_mod]

theorem bits_zero (width : Nat) : bits width 0 = List.replicate width false := by
  induction width with
  | zero => rfl
  | succ width ih => rw [bits, Nat.zero_div, ih, List.replicate_succ']; rfl

theorem foldl_value (bs : List Bool) (m : Nat) :
    bs.foldl (fun n b => 2 * n + b.toNat) m = m * 2 ^ bs.length + value bs := by
  induction bs generalizing m with
  | nil => simp [value]
  | cons b bs ih =>
    rw [value, List.foldl_cons, List.foldl_cons, ih, ih (2 * 0 + b.toNat), List.length_cons, Nat.pow_succ']
    ring

@[simp] theorem value_nil : value [] = 0 := rfl

/-- What stands behind adds its own value. -/
theorem value_append (bs cs : List Bool) : value (bs ++ cs) = value bs * 2 ^ cs.length + value cs := by
  rw [value, List.foldl_append, foldl_value]
  rfl

theorem value_lt (bs : List Bool) : value bs < 2 ^ bs.length := by
  induction bs using List.reverseRecOn with
  | nil => simp
  | append_singleton bs b ih =>
    have hb : value [b] < 2 := by cases b <;> decide
    rw [value_append, List.length_append, List.length_singleton, Nat.pow_succ]
    omega

/-- The bits of a number spell it, as far as it fits. -/
theorem value_bits (width n : Nat) : value (bits width n) = n % 2 ^ width := by
  induction width generalizing n with
  | zero => rw [bits, value_nil, Nat.pow_zero, Nat.mod_one]
  | succ width ih =>
    have hbit : value [decide (n % 2 = 1)] = n % 2 := by
      rcases Nat.mod_two_eq_zero_or_one n with h | h <;> rw [h] <;> rfl
    have hmod : n % 2 ^ (width + 1) = n % 2 + 2 * (n / 2 % 2 ^ width) := by rw [Nat.pow_succ', Nat.mod_mul]
    rw [bits, value_append, ih, hbit, List.length_singleton, hmod]
    omega

/-- **The round trip** from bits. -/
theorem bits_value (bs : List Bool) : bits bs.length (value bs) = bs := by
  induction bs using List.reverseRecOn with
  | nil => rfl
  | append_singleton bs b ih =>
    have hhalf : value (bs ++ [b]) / 2 = value bs := by
      rw [value_append]
      cases b with
      | false => simp [value]
      | true =>
        simp [value]
        omega
    have hlow : decide (value (bs ++ [b]) % 2 = 1) = b := by
      rw [value_append]
      cases b <;> simp [value]
    rw [List.length_append, List.length_singleton, bits, hhalf, ih, hlow]

/-- The value of a slice, read off the value of the whole. -/
theorem value_take_drop (bs : List Bool) {i width : Nat} (h : i + width ≤ bs.length) :
    value ((bs.drop i).take width) = value bs / 2 ^ (bs.length - (i + width)) % 2 ^ width := by
  have hsplit : bs = bs.take i ++ ((bs.drop i).take width ++ bs.drop (i + width)) := by
    rw [← List.drop_drop, List.take_append_drop, List.take_append_drop]
  have hmid : ((bs.drop i).take width).length = width := by
    rw [List.length_take, List.length_drop]
    omega
  have hend : (bs.drop (i + width)).length = bs.length - (i + width) := List.length_drop
  have hvalue : value bs = (value (bs.take i) * 2 ^ width + value ((bs.drop i).take width)) *
      2 ^ (bs.length - (i + width)) + value (bs.drop (i + width)) := by
    conv_lhs => rw [hsplit]
    rw [value_append, value_append, List.length_append, hmid, hend, Nat.pow_add]
    ring
  have hlow := value_lt (bs.drop (i + width))
  have hgroup := value_lt ((bs.drop i).take width)
  rw [hend] at hlow
  rw [hmid] at hgroup
  rw [hvalue, Nat.add_comm (_ * _), Nat.add_mul_div_right _ _ (Nat.two_pow_pos _), Nat.div_eq_of_lt hlow,
    Nat.zero_add, Nat.add_comm (_ * _), Nat.add_mul_mod_self_right, Nat.mod_eq_of_lt hgroup]

/-! ## Groups -/

variable {width : Nat} {bs cs : List Bool}

theorem groups_of_length_lt (h : bs.length < width) : groups width bs = [] := by
  rw [groups, Nat.div_eq_of_lt h, List.range_zero, List.map_nil]

theorem length_of_mem_groups {group : List Bool} (h : group ∈ groups width bs) : group.length = width := by
  obtain ⟨i, hi, rfl⟩ := List.mem_map.mp h
  have hin : i * width + width ≤ bs.length := by
    rw [← Nat.succ_mul]
    exact (Nat.mul_le_mul_right _ (List.mem_range.mp hi)).trans (Nat.div_mul_le_self ..)
  rw [List.length_take, List.length_drop]
  omega

/-- The first group, and the others. -/
theorem groups_append (h : bs.length = width) (hpos : 0 < width) :
    groups width (bs ++ cs) = bs :: groups width cs := by
  have hcount : (bs ++ cs).length / width = cs.length / width + 1 := by
    rw [List.length_append, h, Nat.add_comm, Nat.add_div_right _ hpos]
  rw [groups, hcount, List.range_succ_eq_map, List.map_cons, List.map_map, Nat.zero_mul, List.drop_zero,
    ← h, List.take_left, groups]
  refine congrArg _ (List.map_congr_left fun i _ => ?_)
  rw [Function.comp_apply, Nat.succ_mul, Nat.add_comm, List.drop_append, List.drop_of_length_le (by omega),
    List.nil_append, Nat.add_sub_cancel_left]

/-- Whole groups side by side are all the bits. -/
theorem flatten_groups (hpos : 0 < width) (h : width ∣ bs.length) : (groups width bs).flatten = bs := by
  obtain ⟨k, hk⟩ := h
  induction k generalizing bs with
  | zero =>
    rw [groups, hk, Nat.mul_zero, Nat.zero_div]
    exact (List.length_eq_zero_iff.mp hk).symm
  | succ k ih =>
    have hfirst : (bs.take width).length = width := by
      rw [List.length_take, hk, Nat.mul_succ]
      omega
    have hrest : (bs.drop width).length = width * k := by
      rw [List.length_drop, hk, Nat.mul_succ]
      omega
    rw [← List.take_append_drop width bs, groups_append hfirst hpos, List.flatten_cons, ih hrest]

/-- The values of whole groups spell all the bits. -/
theorem flatMap_bits_value (hpos : 0 < width) (h : width ∣ bs.length) :
    ((groups width bs).map value).flatMap (bits width) = bs := by
  have hgroup : ∀ group ∈ groups width bs, (bits width ∘ value) group = id group := fun group hgroup => by
    conv_lhs => rw [← length_of_mem_groups hgroup]
    exact bits_value group
  rw [List.flatMap_def, List.map_map, List.map_congr_left hgroup, List.map_id, flatten_groups hpos h]

/-- A whole group is not touched by what stands behind. -/
theorem take_drop_append {i : Nat} (hi : i < bs.length / width) :
    ((bs ++ cs).drop (i * width)).take width = (bs.drop (i * width)).take width := by
  have hin : i * width + width ≤ bs.length := by
    rw [← Nat.succ_mul]
    exact (Nat.mul_le_mul_right _ hi).trans (Nat.div_mul_le_self ..)
  rw [List.drop_append_of_le_length (by omega), List.take_append_of_le_length (by rw [List.length_drop]; omega)]

/-- Bits at the end that fill no group. -/
theorem groups_append_of_lt (h : bs.length % width + cs.length < width) :
    groups width (bs ++ cs) = groups width bs := by
  have hdiv := Nat.div_add_mod bs.length width
  have hcount : (bs ++ cs).length / width = bs.length / width := by
    rw [List.length_append]
    refine Nat.div_eq_of_lt_le ?_ ?_
    · rw [Nat.mul_comm]
      omega
    · rw [Nat.succ_mul, Nat.mul_comm]
      omega
  rw [groups, hcount, groups]
  exact List.map_congr_left fun i hi => take_drop_append (List.mem_range.mp hi)

/-- Bits at the end that fill one more group: its value stands above what is left over. -/
theorem groups_append_of_le (hpos : 0 < width) (h : width ≤ bs.length % width + cs.length)
    (hcs : cs.length ≤ width) :
    (groups width (bs ++ cs)).map value = (groups width bs).map value ++
      [value (bs ++ cs) / 2 ^ (bs.length % width + cs.length - width) % 2 ^ width] := by
  have hdiv := Nat.div_add_mod bs.length width
  have hmod := Nat.mod_lt bs.length hpos
  have hcount : (bs ++ cs).length / width = bs.length / width + 1 := by
    rw [List.length_append]
    refine Nat.div_eq_of_lt_le ?_ ?_
    · rw [Nat.succ_mul, Nat.mul_comm]
      omega
    · rw [Nat.succ_mul, Nat.succ_mul, Nat.mul_comm]
      omega
  have hlast : bs.length / width * width + width ≤ (bs ++ cs).length := by
    rw [List.length_append, Nat.mul_comm]
    omega
  have hleft : (bs ++ cs).length - (bs.length / width * width + width) =
      bs.length % width + cs.length - width := by
    rw [List.length_append, Nat.mul_comm]
    omega
  rw [groups, hcount, List.range_succ, List.map_append, List.map_append, List.map_singleton, List.map_singleton,
    value_take_drop _ hlast, hleft, groups]
  exact congrArg (· ++ _) (congrArg _ (List.map_congr_left fun i hi => take_drop_append (List.mem_range.mp hi)))

end Bits
