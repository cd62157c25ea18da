import Mathlib.Order.Lattice
import Mathlib.Data.List.Basic

/-!
# Sweeps

A sweep over an ordered type goes through the elements that exist, in order
and without leaving one out. `Sweep E visited` says so of the elements visited
so far, newest first.

A step is `Sweep.cons`: the next element lies above the last one, and nothing
that exists lies between the two.
-/

namespace Ch552e.Lib

universe u

variable {α : Type u} [LinearOrder α] {E : α → Prop} {visited : List α}
  {p q : α}

/-- The visited elements, newest first, are strictly increasing, and whatever
exists below one of them is visited too. -/
structure Sweep (E : α → Prop) (visited : List α) : Prop where
  increasing : visited.Pairwise (· > ·)
  complete : ∀ q ∈ visited, ∀ d, E d → d < q → d ∈ visited

theorem Sweep.single (h : ∀ d, E d → p ≤ d) : Sweep E [p] where
  increasing := List.pairwise_singleton _ _
  complete q hq d hd hlt := by
    rw [List.mem_singleton] at hq
    subst hq
    exact absurd hlt (not_lt.mpr (h d hd))

theorem Sweep.cons (h : Sweep E (p :: visited)) (hlt : p < q)
    (hgap : ∀ d, E d → p < d → q ≤ d) : Sweep E (q :: p :: visited) where
  increasing := by
    refine List.pairwise_cons.mpr ⟨?_, h.increasing⟩
    intro d hd
    rcases List.mem_cons.mp hd with rfl | hd
    · exact hlt
    · exact lt_trans (List.rel_of_pairwise_cons h.increasing hd) hlt
  complete r hr d hd hdr := by
    rcases List.mem_cons.mp hr with rfl | hr
    · rcases lt_trichotomy d p with hbelow | rfl | habove
      · exact List.mem_cons_of_mem _
          (h.complete p List.mem_cons_self d hd hbelow)
      · exact List.mem_cons_of_mem _ List.mem_cons_self
      · exact absurd hdr (not_lt.mpr (hgap d hd habove))
    · exact List.mem_cons_of_mem _ (h.complete r hr d hd hdr)

theorem Sweep.nodup (h : Sweep E visited) : visited.Nodup :=
  h.increasing.imp fun hlt => hlt.ne'

end Ch552e.Lib
