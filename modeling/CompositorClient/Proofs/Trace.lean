/-! What a run gives on its way, collected action by action. -/

namespace CompositorClient

variable {σ α β : Type}

/-- What the actions give one after another, each in the state that those before it have left. -/
def trace (step : σ → α → σ) (out : σ → α → List β) : σ → List α → List β
  | _, [] => []
  | s, a :: as => out s a ++ trace step out (step s a) as

variable (step : σ → α → σ) (out : σ → α → List β)

@[simp] theorem trace_nil (s : σ) : trace step out s [] = [] := rfl
@[simp] theorem trace_cons (s : σ) (a : α) (as : List α) :
    trace step out s (a :: as) = out s a ++ trace step out (step s a) as := rfl

theorem trace_append (s : σ) (as bs : List α) :
    trace step out s (as ++ bs) = trace step out s as ++ trace step out (as.foldl step s) bs := by
  induction as generalizing s with
  | nil => rfl
  | cons a as ih => simp [ih]

theorem trace_concat (s : σ) (as : List α) (a : α) :
    trace step out s (as ++ [a]) = trace step out s as ++ out (as.foldl step s) a := by
  simp [trace_append]

/-- Actions that give nothing, and that no later one notices, can be left out. -/
theorem trace_filter {r : σ → σ → Prop} {keep : α → Bool}
    (kept : ∀ {s s' a}, r s s' → keep a = true →
      out s a = out s' a ∧ r (step s a) (step s' a))
    (dropped : ∀ {s s' a}, r s s' → keep a = false → out s a = [] ∧ r (step s a) s')
    {s s' : σ} (h : r s s') (as : List α) :
    trace step out s as = trace step out s' (as.filter keep) ∧
      r (as.foldl step s) ((as.filter keep).foldl step s') := by
  induction as generalizing s s' with
  | nil => exact ⟨rfl, h⟩
  | cons a as ih =>
    cases ha : keep a with
    | true =>
      obtain ⟨hout, hstep⟩ := kept h ha
      obtain ⟨htrace, hlast⟩ := ih hstep
      rw [List.filter_cons_of_pos ha, trace_cons, trace_cons, hout, htrace]
      exact ⟨rfl, hlast⟩
    | false =>
      obtain ⟨hout, hstep⟩ := dropped h ha
      obtain ⟨htrace, hlast⟩ := ih hstep
      rw [List.filter_cons_of_neg (by simp [ha]), trace_cons, hout, htrace]
      exact ⟨rfl, hlast⟩

end CompositorClient
