import MqssClient.Foundations.Prog
import Mathlib.Data.Finset.Insert
import Mathlib.Data.Finset.Erase
import Mathlib.Data.List.Nodup

/-!
# Ownership along a run

Some calls hand out a resource and some take one back. Replaying a run gives the set of resources that are live
after it.

* `Ledger`: which calls hand out and take back; `Ledger.live env tr`: what is live after the calls `tr`;
* `Ledger.Fresh`: the environment never hands out what is live;
* `Made tr tr' before op`: the call `op` was made after `before`, on the way from `tr` to `tr'`;
* `Ledger.Holds env tr tr' owned`: on the way from `tr` to `tr'` exactly `owned` was added to what is live;
* `Ledger.Account`: this, with all that was handed out and taken back on the way and whether the requests that count were
  granted; there is one rule for each kind of call.
-/

namespace Foundations

variable {Op : Type}

/-! ## The calls of a run -/

/-- The call `op` was made after `before`, on the way from `tr` to `tr'`. -/
def Made (tr tr' before : List Op) (op : Op) : Prop := tr <+: before ∧ before ++ [op] <+: tr'

theorem not_made_self {tr before : List Op} {op : Op} : ¬ Made tr tr before op := by
  rintro ⟨h1, h2⟩
  have hlen := (h2.trans h1).length_le
  rw [List.length_append, List.length_singleton] at hlen
  omega

theorem made_concat {tr tr' before : List Op} {op op' : Op} (h : tr <+: tr') :
    Made tr (tr' ++ [op']) before op ↔ Made tr tr' before op ∨ before = tr' ∧ op = op' := by
  unfold Made
  rw [List.prefix_concat_iff]
  constructor
  · rintro ⟨hb, heq | hp⟩
    · obtain ⟨hb', ho⟩ := List.append_inj' heq rfl
      exact Or.inr ⟨hb', List.singleton_inj.mp ho⟩
    · exact Or.inl ⟨hb, hp⟩
  · rintro (⟨hb, hp⟩ | ⟨rfl, rfl⟩)
    · exact ⟨hb, Or.inr hp⟩
    · exact ⟨h, Or.inl rfl⟩

/-! ## Live resources -/

/-- Which calls hand out a resource, given the answer, and which take one back. -/
structure Ledger (Ans : Op → Type) (κ : Type) where
  acquired : (op : Op) → Ans op → Option κ
  released : Op → Option κ

namespace Ledger

variable {Ans : Op → Type} {κ : Type} (L : Ledger Ans κ) (env : Env Ans)

/-- A resource was handed out on the way from `tr` to `tr'`. -/
def HandedOut (tr tr' : List Op) (a : κ) : Prop :=
  ∃ before op, Made tr tr' before op ∧ L.acquired op (env before op) = some a

/-- A resource was taken back on the way from `tr` to `tr'`. -/
def TakenBack (tr tr' : List Op) (a : κ) : Prop :=
  ∃ before op, Made tr tr' before op ∧ L.released op = some a

/-- Every request that counts was granted on the way from `tr` to `tr'`. -/
def Granted (counts : Op → Prop) (tr tr' : List Op) : Prop :=
  ∀ before op, Made tr tr' before op → counts op → (L.acquired op (env before op)).isSome

/-- The environment grants these requests, one after the other. -/
def GrantsAll : List Op → List Op → Prop
  | _, [] => True
  | tr, op :: ops => (L.acquired op (env tr op)).isSome ∧ GrantsAll (tr ++ [op]) ops

variable {L env}

theorem handedOut_concat {tr tr' : List Op} {op : Op} {a : κ} (h : tr <+: tr') :
    L.HandedOut env tr (tr' ++ [op]) a ↔ L.HandedOut env tr tr' a ∨ L.acquired op (env tr' op) = some a := by
  simp only [HandedOut, made_concat h, or_and_right, exists_or]
  refine or_congr_right ⟨?_, fun ha => ⟨tr', op, ⟨rfl, rfl⟩, ha⟩⟩
  rintro ⟨_, _, ⟨rfl, rfl⟩, ha⟩
  exact ha

theorem takenBack_concat {tr tr' : List Op} {op : Op} {a : κ} (h : tr <+: tr') :
    L.TakenBack tr (tr' ++ [op]) a ↔ L.TakenBack tr tr' a ∨ L.released op = some a := by
  simp only [TakenBack, made_concat h, or_and_right, exists_or]
  refine or_congr_right ⟨?_, fun ha => ⟨tr', op, ⟨rfl, rfl⟩, ha⟩⟩
  rintro ⟨_, _, ⟨rfl, rfl⟩, ha⟩
  exact ha

theorem granted_concat {counts : Op → Prop} {tr tr' : List Op} {op : Op} (h : tr <+: tr') :
    L.Granted env counts tr (tr' ++ [op]) ↔
      L.Granted env counts tr tr' ∧ (counts op → (L.acquired op (env tr' op)).isSome) := by
  simp only [Granted, made_concat h]
  constructor
  · intro hg
    exact ⟨fun before op' hm => hg before op' (Or.inl hm), hg tr' op (Or.inr ⟨rfl, rfl⟩)⟩
  · rintro ⟨hg, hop⟩ before op' (hm | ⟨rfl, rfl⟩)
    · exact hg before op' hm
    · exact hop

variable (L env) [DecidableEq κ]

/-- What is live after one more call. -/
def step (live : Finset κ) (op : Op) (ans : Ans op) : Finset κ :=
  let live := (L.released op).elim live live.erase
  (L.acquired op ans).elim live fun a => insert a live

/-- The calls, replayed. -/
def replay (tr : List Op) : List Op × Finset κ :=
  tr.foldl (fun s op => (s.1 ++ [op], L.step s.2 op (env s.1 op))) ([], ∅)

/-- What is live after the calls `tr`, each answered by the environment. -/
def live (tr : List Op) : Finset κ := (L.replay env tr).2

theorem replay_concat (tr : List Op) (op : Op) :
    L.replay env (tr ++ [op]) =
      ((L.replay env tr).1 ++ [op], L.step (L.replay env tr).2 op (env (L.replay env tr).1 op)) := by
  rw [replay, List.foldl_append]
  rfl

theorem replay_fst (tr : List Op) : (L.replay env tr).1 = tr := by
  induction tr using List.reverseRecOn with
  | nil => rfl
  | append_singleton tr op ih => rw [replay_concat, ih]

@[simp] theorem live_nil : L.live env [] = ∅ := rfl

theorem live_concat (tr : List Op) (op : Op) : L.live env (tr ++ [op]) = L.step (L.live env tr) op (env tr op) := by
  rw [live, replay_concat, replay_fst]
  rfl

/-- The environment never hands out what is live. -/
def Fresh : Prop := ∀ tr op a, L.acquired op (env tr op) = some a → a ∉ L.live env tr

variable {L env}

theorem mem_step {live : Finset κ} {op : Op} {ans : Ans op} {a : κ} :
    a ∈ L.step live op ans ↔ L.acquired op ans = some a ∨ a ∈ live ∧ L.released op ≠ some a := by
  unfold step
  cases L.acquired op ans <;> cases L.released op <;> simp [eq_comm, and_comm]

/-- An environment that numbers what it hands out never hands out what is live. -/
theorem fresh_of_numbered {L : Ledger Ans Nat} {env : Env Ans}
    (h : ∀ tr op a, L.acquired op (env tr op) = some a → a = tr.length + 1) : L.Fresh env := by
  have hlive : ∀ tr a, a ∈ L.live env tr → a ≤ tr.length := by
    intro tr
    induction tr using List.reverseRecOn with
    | nil =>
      intro a ha
      cases ha
    | append_singleton tr op ih =>
      intro a ha
      rw [live_concat, mem_step] at ha
      rw [List.length_append, List.length_singleton]
      rcases ha with ha | ⟨ha, -⟩
      · exact (h tr op a ha).le
      · exact (ih a ha).trans (Nat.le_succ _)
  intro tr op a ha hmem
  have hle := hlive tr a hmem
  rw [h tr op a ha] at hle
  omega

/-! ## What a run adds -/

/-- On the way from `tr` to `tr'` exactly `owned` was added to what is live. -/
structure Holds (L : Ledger Ans κ) (env : Env Ans) (tr tr' : List Op) (owned : List κ) : Prop where
  nodup : owned.Nodup
  disjoint : ∀ a ∈ owned, a ∉ L.live env tr
  live : ∀ a, a ∈ L.live env tr' ↔ a ∈ L.live env tr ∨ a ∈ owned

namespace Holds

variable {tr tr' : List Op} {owned owned' : List κ} {op : Op} {a : κ}

theorem refl : L.Holds env tr tr [] := ⟨List.nodup_nil, by simp, by simp⟩

theorem perm (h : L.Holds env tr tr' owned) (hp : owned.Perm owned') : L.Holds env tr tr' owned' :=
  ⟨hp.nodup_iff.mp h.nodup, fun a ha => h.disjoint a (hp.mem_iff.mpr ha), fun a => by rw [h.live, hp.mem_iff]⟩

/-- A run that holds nothing leaves the live set as it was. -/
theorem live_eq (h : L.Holds env tr tr' []) : L.live env tr' = L.live env tr := by
  ext a
  simp [h.live]

/-- A resource handed out is owned besides the others. -/
theorem acquire (hf : L.Fresh env) (h : L.Holds env tr tr' owned) (hr : L.released op = none)
    (ha : L.acquired op (env tr' op) = some a) : L.Holds env tr (tr' ++ [op]) (a :: owned) := by
  have hnew : a ∉ L.live env tr ∧ a ∉ owned := by
    have hfresh := hf tr' op a ha
    rw [h.live, not_or] at hfresh
    exact hfresh
  refine ⟨List.nodup_cons.mpr ⟨hnew.2, h.nodup⟩, ?_, fun b => ?_⟩
  · intro b hb
    rcases List.mem_cons.mp hb with rfl | hb
    · exact hnew.1
    · exact h.disjoint b hb
  · rw [live_concat, mem_step, ha, hr, h.live, List.mem_cons, Option.some.injEq]
    simp [or_left_comm, eq_comm]

/-- A call that hands out nothing and takes back nothing changes nothing. -/
theorem refuse (h : L.Holds env tr tr' owned) (hr : L.released op = none)
    (ha : L.acquired op (env tr' op) = none) : L.Holds env tr (tr' ++ [op]) owned := by
  refine ⟨h.nodup, h.disjoint, fun b => ?_⟩
  rw [live_concat, mem_step, ha, hr, h.live]
  simp

/-- What is taken back is not owned any more. -/
theorem release (h : L.Holds env tr tr' (a :: owned)) (hr : L.released op = some a)
    (ha : L.acquired op (env tr' op) = none) : L.Holds env tr (tr' ++ [op]) owned := by
  obtain ⟨hnot, hnodup⟩ := List.nodup_cons.mp h.nodup
  refine ⟨hnodup, fun b hb => h.disjoint b (List.mem_cons_of_mem _ hb), fun b => ?_⟩
  have hlive : a ∉ L.live env tr := h.disjoint a List.mem_cons_self
  rw [live_concat, mem_step, ha, hr, h.live, List.mem_cons]
  simp only [reduceCtorEq, false_or, ne_eq, Option.some.injEq]
  constructor
  · rintro ⟨hb | rfl | hb, hne⟩
    · exact Or.inl hb
    · exact absurd rfl hne
    · exact Or.inr hb
  · rintro (hb | hb)
    · exact ⟨Or.inl hb, fun heq => hlive (heq ▸ hb)⟩
    · exact ⟨Or.inr (Or.inr hb), fun heq => hnot (heq ▸ hb)⟩

end Holds

/-! ## Accounts -/

/-- The account of a run from `tr` to `tr'`: what it owns, what was handed out and taken back, and whether every request
that counts was granted. -/
structure Account (L : Ledger Ans κ) (env : Env Ans) (counts : Op → Prop) (tr tr' : List Op) (granted : Prop)
    (owned given returned : List κ) : Prop where
  reached : tr <+: tr'
  holds : L.Holds env tr tr' owned
  granted_iff : L.Granted env counts tr tr' ↔ granted
  given_iff : ∀ a, L.HandedOut env tr tr' a ↔ a ∈ given
  returned_iff : ∀ a, L.TakenBack tr tr' a ↔ a ∈ returned

namespace Account

variable {counts : Op → Prop} {tr tr' : List Op} {granted granted' : Prop} {owned owned' given returned : List κ} {op : Op}
  {a : κ}

theorem refl : L.Account env counts tr tr True [] [] [] where
  reached := List.prefix_rfl
  holds := .refl
  granted_iff := iff_of_true (fun _ _ hm => absurd hm not_made_self) trivial
  given_iff _ := iff_of_false (fun ⟨_, _, hm, _⟩ => not_made_self hm) (List.not_mem_nil)
  returned_iff _ := iff_of_false (fun ⟨_, _, hm, _⟩ => not_made_self hm) (List.not_mem_nil)

theorem perm (h : L.Account env counts tr tr' granted owned given returned) (hp : owned.Perm owned') :
    L.Account env counts tr tr' granted owned' given returned :=
  ⟨h.reached, h.holds.perm hp, h.granted_iff, h.given_iff, h.returned_iff⟩

theorem congr (h : L.Account env counts tr tr' granted owned given returned) (hg : granted ↔ granted') :
    L.Account env counts tr tr' granted' owned given returned :=
  ⟨h.reached, h.holds, h.granted_iff.trans hg, h.given_iff, h.returned_iff⟩

theorem acquire (h : L.Account env counts tr tr' granted owned given returned) (hf : L.Fresh env)
    (hr : L.released op = none) (ha : L.acquired op (env tr' op) = some a) :
    L.Account env counts tr (tr' ++ [op]) granted (a :: owned) (a :: given) returned where
  reached := h.reached.trans (List.prefix_append _ _)
  holds := h.holds.acquire hf hr ha
  granted_iff := by
    rw [granted_concat h.reached, h.granted_iff, ha]
    exact and_iff_left fun _ => rfl
  given_iff b := by
    rw [handedOut_concat h.reached, h.given_iff, ha, Option.some.injEq, List.mem_cons, or_comm, eq_comm]
  returned_iff b := by
    rw [takenBack_concat h.reached, h.returned_iff, hr]
    exact or_iff_left (by simp)

theorem refuse (h : L.Account env counts tr tr' granted owned given returned) (hr : L.released op = none)
    (ha : L.acquired op (env tr' op) = none) :
    L.Account env counts tr (tr' ++ [op]) (granted ∧ ¬ counts op) owned given returned where
  reached := h.reached.trans (List.prefix_append _ _)
  holds := h.holds.refuse hr ha
  granted_iff := by
    rw [granted_concat h.reached, h.granted_iff, ha]
    exact and_congr_right fun _ => by simp
  given_iff b := by
    rw [handedOut_concat h.reached, h.given_iff, ha]
    exact or_iff_left (by simp)
  returned_iff b := by
    rw [takenBack_concat h.reached, h.returned_iff, hr]
    exact or_iff_left (by simp)

theorem release (h : L.Account env counts tr tr' granted (a :: owned) given returned) (hc : ¬ counts op)
    (hr : L.released op = some a) (ha : L.acquired op (env tr' op) = none) :
    L.Account env counts tr (tr' ++ [op]) granted owned given (a :: returned) where
  reached := h.reached.trans (List.prefix_append _ _)
  holds := h.holds.release hr ha
  granted_iff := by
    rw [granted_concat h.reached, h.granted_iff]
    exact and_iff_left fun hop => absurd hop hc
  given_iff b := by
    rw [handedOut_concat h.reached, h.given_iff, ha]
    exact or_iff_left (by simp)
  returned_iff b := by
    rw [takenBack_concat h.reached, h.returned_iff, hr, Option.some.injEq, List.mem_cons, or_comm, eq_comm]

end Account

end Ledger

end Foundations
