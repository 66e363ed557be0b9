import Mathlib.Data.List.Nodup
import Mathlib.Data.List.Perm.Basic

/-!
# Changes of records

The clauses behind a definition say one thing each about it. What each of them says is a change of one
field of a record.

Results:
* `foldl_changes_perm`: changes of different fields make the same record in every order.
* `value?_foldl_changes`: a field says what the change of it says, if there is one.
-/

namespace SqlFrontend

variable {σ γ φ : Type} {apply : σ → γ → σ} {field : γ → φ} {cs cs' : List γ}

theorem foldl_changes_perm
    (hcomm : ∀ {c c'}, field c ≠ field c' → ∀ s, apply (apply s c) c' = apply (apply s c') c)
    (h : cs.Perm cs') (hcs : (cs.map field).Nodup) (s : σ) : cs.foldl apply s = cs'.foldl apply s := by
  refine h.foldl_eq' (fun c hc c' hc' s => ?_) s
  by_cases heq : c = c'
  · rw [heq]
  · exact hcomm (fun hfield => heq (List.inj_on_of_nodup_map hcs hc hc' hfield)) s

theorem value?_foldl_changes [DecidableEq φ] (value? : σ → Option γ) {f : φ}
    (hvalue : ∀ c s, value? (apply s c) = if field c = f then some c else value? s)
    (hcs : (cs.map field).Nodup) (s : σ) :
    value? (cs.foldl apply s) = (cs.find? fun c => field c = f).or (value? s) := by
  induction cs generalizing s with
  | nil => rfl
  | cons c cs ih =>
    obtain ⟨hnew, hcs⟩ := List.nodup_cons.1 hcs
    rw [List.foldl_cons, ih hcs, hvalue]
    by_cases hc : field c = f
    · have hnone : cs.find? (fun c => field c = f) = none := by
        refine List.find?_eq_none.2 fun c' hc' heq => hnew ?_
        rw [hc, ← of_decide_eq_true heq]
        exact List.mem_map_of_mem hc'
      rw [if_pos hc, hnone, List.find?_cons_of_pos (by simpa using hc)]
      rfl
    · rw [if_neg hc, List.find?_cons_of_neg (by simpa using hc)]

end SqlFrontend
