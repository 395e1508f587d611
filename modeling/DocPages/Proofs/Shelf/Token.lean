import DocPages.Html.Shelf
import DocPages.Proofs.Text.Numeral
import DocPages.Proofs.Text.Search

/-!
# Tokens

A token holds the letter F once, at its fourth place, so wherever that letter stands it tells where a token
must begin; and its number ends with the last digit, so tokens of different numbers are not confused.
-/

namespace DocPages.Shelf

/-- A token behind its letter F. -/
def tokenRest (n : Nat) : Text :=
  ['O', 'R', 'G', 'E', 'S', 'T', 'A', 'S', 'H'] ++ Text.ofNat n ++ ['E', 'N', 'D']

theorem token_eq (n : Nat) : token n = ['D', 'O', 'C'] ++ 'F' :: tokenRest n := rfl

theorem token_ne_nil (n : Nat) : token n ≠ [] := by simp [token_eq]

theorem tokenRest_append_inj {m n : Nat} {s t : Text} (h : tokenRest m ++ s = tokenRest n ++ t) :
    m = n ∧ s = t := by
  have hd : Text.ofNat m ++ 'E' :: (['N', 'D'] ++ s) = Text.ofNat n ++ 'E' :: (['N', 'D'] ++ t) := by
    simpa [tokenRest] using h
  have hn : m = n := by
    have hE (u : Text) : ∀ c ∈ ('E' :: u).head?, c.isDigit = false := by
      rintro c hc
      obtain rfl := Option.some.inj hc
      decide
    apply Text.ofNat_injective
    rw [← Text.takeWhile_ofNat m (hE (['N', 'D'] ++ s)), hd, Text.takeWhile_ofNat n (hE _)]
  subst hn
  exact ⟨rfl, List.append_cancel_left h⟩

theorem mem_tokenRest {n : Nat} {c : Char} (h : c ∈ tokenRest n) : c.isAlphanum = true ∧ c ≠ 'F' := by
  have hletters : (['O', 'R', 'G', 'E', 'S', 'T', 'A', 'S', 'H'] ++ ['E', 'N', 'D']).all
      (fun c => c.isAlphanum && c != 'F') = true := by decide
  have hletter (hc : c ∈ ['O', 'R', 'G', 'E', 'S', 'T', 'A', 'S', 'H'] ++ ['E', 'N', 'D']) :
      c.isAlphanum = true ∧ c ≠ 'F' := by
    simpa using List.all_eq_true.1 hletters c hc
  simp only [tokenRest, List.mem_append] at h
  rcases h with (h | h) | h
  · exact hletter (List.mem_append_left _ h)
  · have hc := Text.isDigit_of_mem_ofNat h
    refine ⟨by simp [Char.isAlphanum, hc], ?_⟩
    rintro rfl
    revert hc; decide
  · exact hletter (List.mem_append_right _ h)

theorem F_notMem_tokenRest (n : Nat) : 'F' ∉ tokenRest n := fun h => (mem_tokenRest h).2 rfl

theorem isAlphanum_of_mem_token {n : Nat} {c : Char} (h : c ∈ token n) : c.isAlphanum = true := by
  have hl : ['D', 'O', 'C'].all Char.isAlphanum = true := by decide
  rw [token_eq] at h
  rcases List.mem_append.1 h with h | h
  · exact List.all_eq_true.1 hl c h
  · rcases List.mem_cons.1 h with rfl | h
    · decide
    · exact (mem_tokenRest h).1

end DocPages.Shelf
