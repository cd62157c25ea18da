import Mathlib.Data.List.Basic

/-!
# The packets of a control read

A device that answers a request for `want` units with the list `bytes` cuts it
into packets of at most `m`. The receiver stops at the first packet that is
short, or when it has `want` units; so an answer that is shorter than asked
for and ends on a packet boundary needs one more packet, an empty one.

`packets` is that list in closed form and `packets_of_last`, `packets_of_more`
are the same list the way it is produced, one packet at a time. The two agree
with the receiver's stopping rule exactly, which is the content of the split
`bytes.length < m ∨ want ≤ m`.
-/

namespace Ch552e.Lib

universe u

variable {β : Type u}

/-- Full packets of `m`, then what is left over if anything is. -/
def chunks (m : Nat) (bytes : List β) : List (List β) :=
  ((List.range (bytes.length / m)).map fun i => (bytes.drop (i * m)).take m) ++
    if bytes.length % m = 0 then [] else [bytes.drop (bytes.length / m * m)]

/-- The chunks, and the empty packet that ends an answer shorter than asked
for when its last chunk does not. -/
def packets (m want : Nat) (bytes : List β) : List (List β) :=
  chunks m bytes ++
    if bytes.length % m = 0 ∧ bytes.length < want then [[]] else []

@[simp] theorem chunks_nil (m : Nat) : chunks m ([] : List β) = [] := by
  simp [chunks]

theorem chunks_of_lt {m : Nat} {bytes : List β} (h : bytes.length < m)
    (hne : bytes ≠ []) : chunks m bytes = [bytes] := by
  have hpos := List.length_pos_iff.mpr hne
  simp [chunks, Nat.div_eq_of_lt h, Nat.mod_eq_of_lt h]
  omega

theorem chunks_of_le {m : Nat} {bytes : List β} (hm : 0 < m)
    (h : m ≤ bytes.length) :
    chunks m bytes = bytes.take m :: chunks m (bytes.drop m) := by
  have hdiv : bytes.length / m = (bytes.length - m) / m + 1 :=
    Nat.div_eq_sub_div hm h
  have hmod : bytes.length % m = (bytes.length - m) % m :=
    Nat.mod_eq_sub_mod h
  simp only [chunks, List.length_drop, hdiv, hmod]
  rw [List.range_succ_eq_map, List.map_cons, List.map_map, List.cons_append]
  congr 1
  · simp
  · congr 1
    · apply List.map_congr_left
      intro i _
      simp [List.drop_drop, Nat.succ_mul, Nat.add_comm]
    · simp [List.drop_drop, Nat.succ_mul, Nat.add_comm]

theorem flatten_chunks {m : Nat} (hm : 0 < m) (bytes : List β) :
    (chunks m bytes).flatten = bytes := by
  rcases Nat.lt_or_ge bytes.length m with hlt | hge
  · by_cases hnil : bytes = []
    · simp [hnil]
    · simp [chunks_of_lt hlt hnil]
  · rw [chunks_of_le hm hge, List.flatten_cons, flatten_chunks hm,
      List.take_append_drop]
termination_by bytes.length
decreasing_by simp only [List.length_drop]; omega

/-- Nothing is lost, repeated or reordered by the framing. -/
theorem flatten_packets {m : Nat} (hm : 0 < m) (want : Nat) (bytes : List β) :
    (packets m want bytes).flatten = bytes := by
  rw [packets, List.flatten_append, flatten_chunks hm]
  split <;> simp

theorem map_length_chunks (m : Nat) (bytes : List β) :
    (chunks m bytes).map List.length =
      List.replicate (bytes.length / m) m ++
        if bytes.length % m = 0 then [] else [bytes.length % m] := by
  rw [chunks, List.map_append, List.map_map]
  congr 1
  · apply List.ext_getElem
    · simp
    · intro i h₁ h₂
      simp only [List.length_map, List.length_range] at h₁
      have hle : (i + 1) * m ≤ bytes.length :=
        Nat.le_trans (Nat.mul_le_mul_right m h₁) (Nat.div_mul_le_self _ m)
      rw [Nat.succ_mul] at hle
      simp
      omega
  · split
    · rfl
    · have := Nat.div_add_mod bytes.length m
      rw [Nat.mul_comm] at this
      simp
      omega

/-- The length of every packet: full ones, the remainder if there is one, and
the empty one only where the answer falls short on a boundary. -/
theorem map_length_packets (m want : Nat) (bytes : List β) :
    (packets m want bytes).map List.length =
      List.replicate (bytes.length / m) m ++
        ((if bytes.length % m = 0 then [] else [bytes.length % m]) ++
          if bytes.length % m = 0 ∧ bytes.length < want then [0] else []) := by
  rw [packets, List.map_append, map_length_chunks, List.append_assoc]
  congr 2
  split <;> rfl

theorem length_le_of_mem_packets {m want : Nat} {bytes q : List β} (hm : 0 < m)
    (hq : q ∈ packets m want bytes) : q.length ≤ m := by
  have hmem : q.length ∈ (packets m want bytes).map List.length :=
    List.mem_map_of_mem hq
  have hmod := Nat.mod_lt bytes.length hm
  rw [map_length_packets, List.mem_append, List.mem_append] at hmem
  rcases hmem with hfull | hrest | hzlp
  · exact Nat.le_of_eq (List.eq_of_mem_replicate hfull)
  · split at hrest
    · exact absurd hrest (by simp)
    · rw [List.mem_singleton.mp hrest]
      omega
  · split at hzlp
    · rw [List.mem_singleton.mp hzlp]
      omega
    · exact absurd hzlp (by simp)

/-- The packet the receiver stops at: a short one, or the one that completes
what was asked for. -/
theorem packets_of_last {m want : Nat} {bytes : List β} (hm : 0 < m)
    (hwant : 0 < want) (hle : bytes.length ≤ want)
    (hlast : bytes.length < m ∨ want ≤ m) : packets m want bytes = [bytes] := by
  unfold packets
  by_cases hnil : bytes = []
  · simp [hnil, hwant]
  · have hpos := List.length_pos_iff.mpr hnil
    rcases Nat.lt_or_ge bytes.length m with hlt | hge
    · rw [chunks_of_lt hlt hnil, Nat.mod_eq_of_lt hlt, if_neg (by omega),
        List.append_nil]
    · have hfull : bytes.length = m := by omega
      rw [chunks_of_le hm hge, List.drop_eq_nil_of_le (by omega), chunks_nil,
        List.take_of_length_le (by omega), if_neg (by omega), List.append_nil]

/-- Any other packet is full, and what follows it is the framing of what is
still due. -/
theorem packets_of_more {m want : Nat} {bytes : List β} (hm : 0 < m)
    (hfull : m ≤ bytes.length) (hmore : m < want) :
    packets m want bytes =
      bytes.take m :: packets m (want - m) (bytes.drop m) := by
  have hmod : bytes.length % m = (bytes.length - m) % m :=
    Nat.mod_eq_sub_mod hfull
  have hiff : bytes.length < want ↔ bytes.length - m < want - m := by omega
  simp only [packets, chunks_of_le hm hfull, List.length_drop, hmod, hiff,
    List.cons_append]

theorem packets_ne_nil {m want : Nat} {bytes : List β} (hm : 0 < m)
    (hwant : 0 < want) (hle : bytes.length ≤ want) : packets m want bytes ≠ [] := by
  by_cases hlast : bytes.length < m ∨ want ≤ m
  · rw [packets_of_last hm hwant hle hlast]
    exact List.cons_ne_nil _ _
  · rw [packets_of_more hm (by omega) (by omega)]
    exact List.cons_ne_nil _ _

end Ch552e.Lib
