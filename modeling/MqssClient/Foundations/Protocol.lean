import MqssClient.Foundations.Prog
import MqssClient.Foundations.Transition

/-!
# Programs that follow a protocol

A protocol is a step relation over calls with their answers: it says which call may be made when, and what an answer
changes. A program follows it when it makes no other calls, whatever the answers are.

* `Prog.Run p t a`: `p` can return `a` after the exchanges `t`; `Prog.transcript`: those of a run in an environment;
* `Prog.Follows step p m Q`: from `m` on, `p` follows the protocol, and `Q` holds when it returns;
* `Follows.bind`, `Follows.mono`, `Follows.run`: the rules, and what they say about runs;
* `Prog.interpret`: each call of a program carried out by a program with a state; `Follows.interpret`, its rule;
* `Prog.Forgets view ok R p q`: while the answers are `ok`, `q` is `p` without the calls that `view` does not show, and
  what they return is related; `Forgets.run`, `Forgets.quiet`: so is each run with such answers.
-/

namespace Foundations

/-- A call and its answer. -/
abbrev Exchange {Op : Type} (Ans : Op → Type) : Type := (op : Op) × Ans op

namespace Prog

variable {Op Op' : Type} {Ans : Op → Type} {Ans' : Op' → Type} {α β M σ : Type}

/-- The program can return `a` after these exchanges. -/
inductive Run : Prog Ans α → List (Exchange Ans) → α → Prop where
  | pure (a : α) : Run (.pure a) [] a
  | call {op : Op} {k : Ans op → Prog Ans α} (ans : Ans op) {t : List (Exchange Ans)} {a : α} (h : Run (k ans) t a) :
      Run (.call op k) (⟨op, ans⟩ :: t) a

/-- The exchanges of a run in an environment, after the calls `tr`. -/
def transcript (env : Env Ans) : Prog Ans α → List Op → List (Exchange Ans)
  | .pure _, _ => []
  | .call op k, tr => ⟨op, env tr op⟩ :: transcript env (k (env tr op)) (tr ++ [op])

theorem Run.bind {p : Prog Ans α} {f : α → Prog Ans β} {t₁ t₂ : List (Exchange Ans)} {a : α} {b : β} (h₁ : p.Run t₁ a)
    (h₂ : (f a).Run t₂ b) : (p.bind f).Run (t₁ ++ t₂) b := by
  induction h₁ with
  | pure a => exact h₂
  | call ans _ ih => exact .call ans (ih h₂)

theorem Run.map {p : Prog Ans α} {t : List (Exchange Ans)} {a : α} (f : α → β) (h : p.Run t a) : (p.map f).Run t (f a) := by
  rw [← List.append_nil t]
  exact h.bind (.pure _)

theorem run_transcript (env : Env Ans) (p : Prog Ans α) (tr : List Op) :
    p.Run (p.transcript env tr) (p.exec env tr).1 := by
  induction p generalizing tr with
  | pure a => exact .pure a
  | call op k ih => exact .call _ (ih _ _)

/-- The calls made are those of the exchanges. -/
theorem exec_transcript (env : Env Ans) (p : Prog Ans α) (tr : List Op) :
    (p.exec env tr).2 = tr ++ (p.transcript env tr).map Sigma.fst := by
  induction p generalizing tr with
  | pure a => exact (List.append_nil tr).symm
  | call op k ih => rw [exec_call, ih, transcript, List.map_cons, List.append_assoc, List.singleton_append]

@[simp] theorem transcript_map (env : Env Ans) (f : α → β) (p : Prog Ans α) (tr : List Op) :
    (p.map f).transcript env tr = p.transcript env tr := by
  induction p generalizing tr with
  | pure a => rfl
  | call op k ih => exact congrArg (_ :: ·) (ih _ _)

/-- From `m` on the program makes only the calls that the protocol allows, and `Q` holds when it returns. -/
def Follows (step : M → Exchange Ans → Option M) : Prog Ans α → M → (α → M → Prop) → Prop
  | .pure a, m, Q => Q a m
  | .call op k, m, Q => ∀ ans, ∃ m', step m ⟨op, ans⟩ = some m' ∧ Follows step (k ans) m' Q

variable {step : M → Exchange Ans → Option M} {m : M} {Q Q' : α → M → Prop} {R : β → M → Prop}

theorem Follows.call {op : Op} {k : Ans op → Prog Ans α}
    (h : ∀ ans, ∃ m', step m ⟨op, ans⟩ = some m' ∧ (k ans).Follows step m' Q) : (Prog.call op k).Follows step m Q := h

theorem Follows.map {p : Prog Ans α} {f : α → β} (h : p.Follows step m fun a m' => R (f a) m') :
    (p.map f).Follows step m R := by
  induction p generalizing m with
  | pure a => exact h
  | call op k ih =>
    intro ans
    obtain ⟨m', hm', hk⟩ := h ans
    exact ⟨m', hm', ih ans hk⟩

theorem Follows.mono {p : Prog Ans α} (h : p.Follows step m Q) (hQ : ∀ a m', Q a m' → Q' a m') : p.Follows step m Q' := by
  induction p generalizing m with
  | pure a => exact hQ a m h
  | call op k ih =>
    intro ans
    obtain ⟨m', hm', hk⟩ := h ans
    exact ⟨m', hm', ih ans hk⟩

theorem Follows.bind {p : Prog Ans α} {f : α → Prog Ans β} (h : p.Follows step m Q)
    (hf : ∀ a m', Q a m' → (f a).Follows step m' R) : (p.bind f).Follows step m R := by
  induction p generalizing m with
  | pure a => exact hf a m h
  | call op k ih =>
    intro ans
    obtain ⟨m', hm', hk⟩ := h ans
    exact ⟨m', hm', ih ans hk⟩

/-- A program that follows the protocol does so in every run. -/
theorem Follows.run {p : Prog Ans α} (h : p.Follows step m Q) {t : List (Exchange Ans)} {a : α} (hrun : p.Run t a) :
    ∃ m', steps step m t = some m' ∧ Q a m' := by
  induction hrun generalizing m with
  | pure a => exact ⟨m, rfl, h⟩
  | call ans _ ih =>
    obtain ⟨m', hm', hk⟩ := h ans
    obtain ⟨m'', hsteps, hQ⟩ := ih hk
    exact ⟨m'', (steps_cons step).mpr ⟨m', hm', hsteps⟩, hQ⟩

/-! ## Interpretation -/

/-- Each call of a program is carried out by a program over other calls, which passes a state on. -/
def interpret (h : (op : Op) → σ → Prog Ans' (Ans op × σ)) : Prog Ans α → σ → Prog Ans' (α × σ)
  | .pure a, s => .pure (a, s)
  | .call op k, s => (h op s).bind fun r => interpret h (k r.1) r.2

/-- What each call keeps, the program keeps. -/
theorem Follows.interpret {step : M → Exchange Ans' → Option M} {h : (op : Op) → σ → Prog Ans' (Ans op × σ)}
    {I : σ → M → Prop} (hop : ∀ op s m, I s m → (h op s).Follows step m fun r m' => I r.2 m') (p : Prog Ans α) {s : σ}
    {m : M} (hI : I s m) : (p.interpret h s).Follows step m fun r m' => I r.2 m' := by
  induction p generalizing s m with
  | pure a => exact hI
  | call op k ih => exact (hop op s m hI).bind fun r m' hr => ih r.1 hr

/-! ## Forgetting calls -/

/-- What is shown of a call, and of its answers. -/
abbrev View (Ans : Op → Type) (Ans' : Op' → Type) : Type := (op : Op) → Option ((op' : Op') × (Ans op → Ans' op'))

def View.exchange (view : View Ans Ans') (e : Exchange Ans) : Option (Exchange Ans') :=
  (view e.1).map fun v => ⟨v.1, v.2 e.2⟩

/-- While the answers are `ok`, `q` is `p` without the calls that are not shown, and does not depend on their answers. What
they return is related. -/
inductive Forgets (view : View Ans Ans') (ok : Exchange Ans → Prop) (R : α → β → Prop) :
    Prog Ans α → Prog Ans' β → Prop where
  | pure {a : α} {b : β} (h : R a b) : Forgets view ok R (.pure a) (.pure b)
  | hidden {op : Op} {k : Ans op → Prog Ans α} {q : Prog Ans' β} (h : view op = none)
      (hk : ∀ ans, ok ⟨op, ans⟩ → Forgets view ok R (k ans) q) : Forgets view ok R (.call op k) q
  | shown {op : Op} {op' : Op'} {f : Ans op → Ans' op'} {k : Ans op → Prog Ans α} {k' : Ans' op' → Prog Ans' β}
      (h : view op = some ⟨op', f⟩) (hk : ∀ ans, ok ⟨op, ans⟩ → Forgets view ok R (k ans) (k' (f ans))) :
      Forgets view ok R (.call op k) (.call op' k')

variable {α' β' : Type} {view : View Ans Ans'} {ok : Exchange Ans → Prop} {S : α → α' → Prop} {S' : β → β' → Prop}
  {T : β → α' → Prop} {T' : α → β' → Prop} {p : Prog Ans α} {q : Prog Ans' α'}

theorem Forgets.bind {f : α → Prog Ans β} {g : α' → Prog Ans' β'} (h : Forgets view ok S p q)
    (hf : ∀ a a', S a a' → Forgets view ok S' (f a) (g a')) : Forgets view ok S' (p.bind f) (q.bind g) := by
  induction h with
  | pure h => exact hf _ _ h
  | hidden hop _ ih => exact .hidden hop ih
  | shown hop _ ih => exact .shown hop ih

theorem Forgets.mono (h : Forgets view ok S p q) {T : α → α' → Prop} (hT : ∀ a a', S a a' → T a a') :
    Forgets view ok T p q := by
  induction h with
  | pure h => exact .pure (hT _ _ h)
  | hidden hop _ ih => exact .hidden hop ih
  | shown hop _ ih => exact .shown hop ih

theorem Forgets.map {f : α → β} {g : α' → β'} (h : Forgets view ok (fun a a' => S' (f a) (g a')) p q) :
    Forgets view ok S' (p.map f) (q.map g) := h.bind fun _ _ h => .pure h

theorem Forgets.map_eq {p q : Prog Ans α} {view : View Ans Ans} (f : α → β) (h : Forgets view ok Eq p q) :
    Forgets view ok Eq (p.map f) (q.map f) := .map (h.mono fun _ _ => congrArg f)

/-- Where each call is carried out by related programs, so is the whole program. -/
theorem Forgets.interpret {Op'' : Type} {Ans'' : Op'' → Type} {view : View Ans' Ans''} {ok : Exchange Ans' → Prop}
    {σ' : Type} {h : (op : Op) → σ → Prog Ans' (Ans op × σ)} {g : (op : Op) → σ' → Prog Ans'' (Ans op × σ')} {I : σ → σ' → Prop}
    (hop : ∀ op s s', I s s' → Forgets view ok (fun r r' => r.1 = r'.1 ∧ I r.2 r'.2) (h op s) (g op s')) (p : Prog Ans α)
    {s : σ} {s' : σ'} (hI : I s s') :
    Forgets view ok (fun r r' => r.1 = r'.1 ∧ I r.2 r'.2) (p.interpret h s) (p.interpret g s') := by
  induction p generalizing s s' with
  | pure a => exact .pure ⟨rfl, hI⟩
  | call op k ih =>
    refine (hop op s s' hI).bind fun r r' hr => ?_
    rw [← hr.1]
    exact ih r.1 hr.2

/-- A run of a program with such answers, without what is not shown, is a run of the other. -/
theorem Forgets.run (h : Forgets view ok S p q) {t : List (Exchange Ans)} {a : α} (hrun : p.Run t a)
    (hok : ∀ e ∈ t, ok e) : ∃ b, S a b ∧ q.Run (t.filterMap view.exchange) b := by
  induction h generalizing t with
  | pure h =>
    cases hrun
    exact ⟨_, h, .pure _⟩
  | hidden hop _ ih =>
    cases hrun with
    | call ans hrun =>
      rw [List.forall_mem_cons] at hok
      rw [List.filterMap_cons, View.exchange, hop]
      exact ih ans hok.1 hrun hok.2
  | shown hop _ ih =>
    cases hrun with
    | call ans hrun =>
      rw [List.forall_mem_cons] at hok
      obtain ⟨b, hb, hq⟩ := ih ans hok.1 hrun hok.2
      rw [List.filterMap_cons, View.exchange, hop]
      exact ⟨b, hb, .call _ hq⟩

/-- Where each call is shown, and any answer is that of a call, each run of the other program comes from one. -/
theorem Forgets.lift (h : Forgets view ok S p q) (hok : ∀ e, ok e)
    (hview : ∀ op, ∃ op' f, view op = some ⟨op', f⟩ ∧ Function.Surjective f) {t : List (Exchange Ans')} {b : α'}
    (hrun : q.Run t b) : ∃ t' a, p.Run t' a ∧ S a b ∧ t = t'.filterMap view.exchange := by
  induction h generalizing t with
  | pure h =>
    cases hrun
    exact ⟨[], _, .pure _, h, rfl⟩
  | @hidden op _ _ hop _ ih =>
    obtain ⟨op', f, hshown, -⟩ := hview op
    rw [hop] at hshown
    cases hshown
  | @shown op op' f _ _ hop _ ih =>
    obtain ⟨_, _, hshown, hf⟩ := hview op
    cases hop.symm.trans hshown
    cases hrun with
    | call ans hrun =>
      obtain ⟨ans, rfl⟩ := hf ans
      obtain ⟨t', a, hp, ha, rfl⟩ := ih ans (hok _) hrun
      refine ⟨⟨op, ans⟩ :: t', a, .call ans hp, ha, ?_⟩
      rw [List.filterMap_cons, View.exchange, hop]
      rfl

end Prog

end Foundations
