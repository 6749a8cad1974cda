import Mathlib.Data.List.Basic
import Mathlib.Data.List.Perm.Basic

/-!
# Pages of a list that changes

A reader takes a list page by page, and the list may change between two pages.  What the
reader sees of an element depends on its rank, the number of elements in front of it: while
no rank comes down, no element is skipped, and while no rank goes up, none comes twice.
-/

namespace Paging

variable {α : Type}

/-- Page number `k`, of `limit` elements each. -/
def page (limit k : Nat) (xs : List α) : List α := (xs.drop (k * limit)).take limit

/-- The rank lies on page `k`. -/
def OnPage (limit k rank : Nat) : Prop := k * limit ≤ rank ∧ rank < (k + 1) * limit

/-- An element that occurs once is on the page of its rank. -/
theorem mem_page_iff {limit k : Nat} {before after : List α} {x : α} (hbefore : x ∉ before)
    (hafter : x ∉ after) :
    x ∈ page limit k (before ++ x :: after) ↔ OnPage limit k before.length := by
  unfold page OnPage
  rw [Nat.add_mul, Nat.one_mul]
  by_cases hge : k * limit ≤ before.length
  · -- what is left in front of `x` after the drop
    have hdrop : (before ++ x :: after).drop (k * limit) =
        before.drop (k * limit) ++ x :: after := List.drop_append_of_le_length hge
    rw [hdrop]
    have hnot : x ∉ before.drop (k * limit) := fun h => hbefore (List.mem_of_mem_drop h)
    by_cases hlt : before.length < k * limit + limit
    · have hlen : (before.drop (k * limit)).length < limit := by
        rw [List.length_drop]
        omega
      have hmem : x ∈ (before.drop (k * limit) ++ x :: after).take limit := by
        rw [List.take_append, List.mem_append]
        right
        obtain ⟨n, hn⟩ : ∃ n, limit - (before.drop (k * limit)).length = n + 1 :=
          ⟨limit - (before.drop (k * limit)).length - 1, by omega⟩
        rw [hn, List.take_succ_cons]
        exact List.mem_cons_self
      exact iff_of_true hmem ⟨hge, hlt⟩
    · have hlen : limit ≤ (before.drop (k * limit)).length := by
        rw [List.length_drop]
        omega
      rw [List.take_append_of_le_length hlen]
      exact iff_of_false (fun h => hnot (List.mem_of_mem_take h)) fun h => hlt h.2
  · have hmem : x ∉ ((before ++ x :: after).drop (k * limit)).take limit := by
      intro h
      have hdrop : x ∈ (before ++ x :: after).drop (k * limit) := List.mem_of_mem_take h
      rw [List.drop_append, List.mem_append] at hdrop
      obtain ⟨n, hn⟩ : ∃ n, k * limit - before.length = n + 1 :=
        ⟨k * limit - before.length - 1, by omega⟩
      rw [hn, List.drop_succ_cons] at hdrop
      rcases hdrop with h | h
      · exact hbefore (List.mem_of_mem_drop h)
      · exact hafter (List.mem_of_mem_drop h)
    exact iff_of_false hmem fun h => hge h.1

/-- **While no rank comes down, none is skipped.** -/
theorem exists_onPage {limit last : Nat} {rank : Nat → Nat}
    (hup : ∀ k < last, rank k ≤ rank (k + 1)) (hlast : rank last < (last + 1) * limit) :
    ∃ k ≤ last, OnPage limit k (rank k) := by
  -- from the last page down to the first one that the rank has reached
  induction last with
  | zero => exact ⟨0, Nat.le_refl 0, by simp [OnPage] at hlast ⊢; exact hlast⟩
  | succ last ih =>
    by_cases hreached : (last + 1) * limit ≤ rank (last + 1)
    · exact ⟨last + 1, Nat.le_refl _, hreached, hlast⟩
    · have hbefore : rank last < (last + 1) * limit := by
        have hle := hup last (Nat.lt_succ_self last)
        omega
      obtain ⟨k, hk, hpage⟩ := ih (fun k hk => hup k (Nat.lt_succ_of_lt hk)) hbefore
      exact ⟨k, Nat.le_succ_of_le hk, hpage⟩

/-- **While no rank goes up, none comes twice.** -/
theorem OnPage.unique {limit k k' rank rank' : Nat} (h : OnPage limit k rank)
    (h' : OnPage limit k' rank') (hle : k ≤ k') (hdown : rank' ≤ rank) : k = k' := by
  by_contra hne
  have hlt : k + 1 ≤ k' := Nat.lt_of_le_of_ne hle hne
  have hmul : (k + 1) * limit ≤ k' * limit := Nat.mul_le_mul_right limit hlt
  have hhigh := h.2
  have hlow := h'.1
  omega

end Paging
