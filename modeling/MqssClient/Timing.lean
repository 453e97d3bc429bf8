import MqssClient.Waiting
import Mathlib.Tactic.Linarith

/-!
# Waiting in time

The polling loop as time passes: a request takes time, and so does a sleep that lasts longer than it should. The loop counts
neither.

* `Clock`: the time after the calls of a run; `EndsAt`: what the service says of a job that ends at some time;
* `Reports`, `GivesUp`: a run learns that its job has ended, or does not;
* `wait_reports`: it does one of these, and which one by when the job ends.
-/

namespace MqssClient

open Foundations

namespace MQSSClient

/-- The time after the calls of a run, in seconds. A call takes up to `lag` longer than it sleeps. -/
structure Clock (lag : ℚ) where
  now : List ClientCall → ℚ
  request : ∀ tr c, now tr ≤ now (tr ++ [.request c]) ∧ now (tr ++ [.request c]) ≤ now tr + lag
  sleep : ∀ tr (seconds : Int), now tr + seconds ≤ now (tr ++ [.sleep_for seconds]) ∧
    now (tr ++ [.sleep_for seconds]) ≤ now tr + seconds + lag

section Timing

variable {lag : ℚ} (clock : Clock lag) (lib : JsonLib) (env : Env ClientAns) (job : JobRequest) (ended : ℚ) (final : Bytes)

/-- The job ends at the time `ended`: a request for its status is carried out while it is made, and reads the final status
from then on. -/
def EndsAt : Prop :=
  ∀ tr, ∃ served, clock.now tr ≤ served ∧ served ≤ clock.now (tr ++ [.request (.get (statusPath job))]) ∧
    ∃ status, polled lib env tr job = .ok status ∧ if ended ≤ served then status = final else status ∉ finalStatuses

/-- What is left of a run when it learns that the job has ended. -/
def report (tr : List ClientCall) : Except Exn (Option JobResult) × List ClientCall :=
  if final = str "COMPLETED" then (fetchJobResult lib job).exec env tr else (.ok none, tr)

/-- The run learns that the job has ended: not before it has, and within one more round. -/
def Reports (timeout : Int) (tr : List ClientCall) : Prop :=
  ∃ calls, (waitForJobResult lib job timeout).exec env tr = report lib env job final (tr ++ calls) ∧
    ended ≤ clock.now (tr ++ calls) ∧ clock.now (tr ++ calls) ≤ max (clock.now tr + lag) (ended + 2 + 3 * lag) ∧
    clock.now (tr ++ calls) ≤ clock.now tr + 2 * (polls timeout - 1) + (2 * polls timeout - 1) * lag

/-- The run gives up when the timeout has passed, and the job had not ended at the beginning of its last round. -/
def GivesUp (timeout : Int) (tr : List ClientCall) : Prop :=
  ∃ calls, (waitForJobResult lib job timeout).exec env tr = (.ok none, tr ++ calls) ∧
    (0 < timeout → clock.now tr + 2 * (polls timeout - 1) < ended) ∧
    clock.now tr + max timeout 0 ≤ clock.now (tr ++ calls) ∧
    clock.now (tr ++ calls) ≤ clock.now tr + max timeout 0 + 2 * polls timeout * lag

variable {clock lib env job ended final} {timeout : Int} {tr : List ClientCall}

theorem Clock.lag_nonneg (clock : Clock lag) : 0 ≤ lag := by
  have h := clock.request [] (.get [])
  linarith

theorem exec_waitForJobResult_final (hpos : 0 < timeout) (hfinal : final ∈ finalStatuses)
    (hs : polled lib env tr job = .ok final) :
    (waitForJobResult lib job timeout).exec env tr =
      report lib env job final (tr ++ [.request (.get (statusPath job))]) := by
  unfold report
  split_ifs with hc
  · exact exec_waitForJobResult_completed lib hpos (hc ▸ hs)
  · exact exec_waitForJobResult_failure lib hpos hs (isFailure_iff.mpr ⟨hfinal, hc⟩)

/-- The calls of a round after which the loop goes on. -/
def round (job : JobRequest) (timeout : Int) : List ClientCall :=
  [.request (.get (statusPath job)), .sleep_for (min timeout pollSeconds)]

/-- A round takes as long as it sleeps, or longer. -/
theorem Clock.round (clock : Clock lag) (job : JobRequest) (timeout : Int) (tr : List ClientCall) :
    clock.now tr + (min timeout pollSeconds : Int) ≤ clock.now (tr ++ round job timeout) ∧
      clock.now (tr ++ round job timeout) ≤ clock.now tr + (min timeout pollSeconds : Int) + 2 * lag := by
  obtain ⟨hfrom, hto⟩ := clock.request tr (.get (statusPath job))
  obtain ⟨hawake, hwoken⟩ := clock.sleep (tr ++ [.request (.get (statusPath job))]) (min timeout pollSeconds)
  rw [List.append_assoc, List.singleton_append] at hawake hwoken
  unfold MQSSClient.round
  constructor <;> linarith

section Round

variable {status : Bytes} {served : ℚ} (hpos : 0 < timeout) (hs : polled lib env tr job = .ok status)
  (hrun : status ∉ finalStatuses) (hfrom : clock.now tr ≤ served) (hserved : served < ended)

include hpos hs hrun

theorem exec_round : (waitForJobResult lib job timeout).exec env tr =
    (waitForJobResult lib job (timeout - min timeout pollSeconds)).exec env (tr ++ round job timeout) :=
  exec_waitForJobResult_running lib hpos hs (isRunning_iff.mpr hrun)

include hfrom hserved

theorem Reports.round (h : Reports clock lib env job ended final (timeout - min timeout pollSeconds) (tr ++ round job timeout)) :
    Reports clock lib env job ended final timeout tr := by
  obtain ⟨calls, hexec, hended, hsoon, hlate⟩ := h
  have hwoken := (clock.round job timeout tr).2
  have hmin : ((min timeout pollSeconds : Int) : ℚ) ≤ 2 := by exact_mod_cast min_le_right timeout pollSeconds
  have hpolls : (polls timeout : ℚ) = polls (timeout - min timeout pollSeconds) + 1 := by exact_mod_cast polls_of_pos hpos
  rw [List.append_assoc] at hexec hended hsoon hlate
  refine ⟨_, (exec_round hpos hs hrun).trans hexec, hended, hsoon.trans (max_le ?_ (le_max_right _ _)), ?_⟩
  · exact le_max_of_le_right (by linarith)
  · rw [hpolls]
    linarith

theorem GivesUp.round (h : GivesUp clock lib env job ended (timeout - min timeout pollSeconds) (tr ++ round job timeout)) :
    GivesUp clock lib env job ended timeout tr := by
  obtain ⟨calls, hexec, hbefore, hfull, hlate⟩ := h
  obtain ⟨hawake, hwoken⟩ := clock.round job timeout tr
  have hpolls : (polls timeout : ℚ) = polls (timeout - min timeout pollSeconds) + 1 := by exact_mod_cast polls_of_pos hpos
  have hleft : max (timeout - min timeout pollSeconds) 0 = timeout - min timeout pollSeconds := max_eq_left (by omega)
  rw [List.append_assoc] at hexec hfull hlate
  rw [hleft, Int.cast_sub] at hfull hlate
  refine ⟨_, (exec_round hpos hs hrun).trans hexec, fun _ => ?_, ?_, ?_⟩
  · rw [hpolls]
    by_cases hlast : 0 < timeout - min timeout pollSeconds
    · have hlong : min timeout pollSeconds = 2 := min_eq_right (by unfold pollSeconds at *; omega)
      have hstill := hbefore hlast
      rw [hlong] at hawake hstill ⊢
      push_cast at hawake
      linarith
    · -- the last round
      have hzero : polls (timeout - min timeout pollSeconds) = 0 := by
        have hnone := mt polls_pos_iff.mp hlast
        omega
      rw [hzero]
      push_cast
      linarith
  · rw [max_eq_left hpos.le]
    linarith
  · rw [max_eq_left hpos.le, hpolls]
    linarith

end Round

theorem reports_or_givesUp (hfinal : final ∈ finalStatuses) (h : EndsAt clock lib env job ended final) (timeout : Int)
    (tr : List ClientCall) :
    Reports clock lib env job ended final timeout tr ∨ GivesUp clock lib env job ended timeout tr := by
  induction hn : polls timeout generalizing timeout tr with
  | zero =>
    have hpos : ¬ 0 < timeout := fun hpos => by rw [polls_of_pos hpos] at hn; cases hn
    refine Or.inr ⟨[], ?_, fun hpos' => absurd hpos' hpos, ?_⟩
    · rw [exec_waitForJobResult_timeout lib hpos, List.append_nil]
    · rw [List.append_nil, hn, max_eq_right (not_lt.mp hpos)]
      constructor <;> norm_num
  | succ n ih =>
    have hpos : 0 < timeout := polls_pos_iff.mp (by omega)
    obtain ⟨served, hfrom, hto, status, hs, hstatus⟩ := h tr
    split_ifs at hstatus with hserved
    · subst hstatus
      have hrequest := (clock.request tr (.get (statusPath job))).2
      refine Or.inl ⟨_, exec_waitForJobResult_final hpos hfinal hs, hserved.trans hto, le_max_of_le_left hrequest, ?_⟩
      have hn0 : 0 ≤ (n : ℚ) * lag := mul_nonneg n.cast_nonneg clock.lag_nonneg
      rw [hn]
      push_cast
      linarith
    · have hpolls : polls (timeout - min timeout pollSeconds) = n := by rw [polls_sub, hn, Nat.add_sub_cancel]
      rcases ih _ (tr ++ round job timeout) hpolls with hnext | hnext
      · exact Or.inl (.round hpos hs hstatus hfrom (not_le.mp hserved) hnext)
      · exact Or.inr (.round hpos hs hstatus hfrom (not_le.mp hserved) hnext)

/-- The polls are two seconds apart, and none comes after the last sleep: a run learns within a round that its job has
ended, if it ends two seconds before the timeout (one, if that is odd); if it ends later than the loop polls, it does not. -/
theorem wait_reports (clock : Clock lag) (hfinal : final ∈ finalStatuses) (h : EndsAt clock lib env job ended final)
    (timeout : Int) (tr : List ClientCall) :
    (Reports clock lib env job ended final timeout tr ∨ GivesUp clock lib env job ended timeout tr) ∧
    (0 < timeout → ended ≤ clock.now tr + 2 * (polls timeout - 1) → Reports clock lib env job ended final timeout tr) ∧
    (clock.now tr + 2 * (polls timeout - 1) + (2 * polls timeout - 1) * lag < ended →
      GivesUp clock lib env job ended timeout tr) := by
  have hends := reports_or_givesUp hfinal h timeout tr
  refine ⟨hends, fun hpos hearly => hends.resolve_right ?_, fun hlate => hends.resolve_left ?_⟩
  · rintro ⟨calls, -, hbefore, -⟩
    exact absurd (hbefore hpos) (not_lt.mpr hearly)
  · rintro ⟨calls, -, hended, -, hto⟩
    exact absurd (hended.trans hto) (not_le.mpr hlate)

end Timing

theorem slept_append (tr tr' : List ClientCall) : slept (tr ++ tr') = slept tr + slept tr' := by
  rw [slept, List.map_append, List.sum_append]
  rfl

/-- Each request takes half a second. -/
def halfSecond : Clock (1 / 2) where
  now tr := slept tr + requests tr * (1 / 2)
  request tr c := by
    rw [slept_append, requests_append, show slept [.request c] = 0 from rfl, show requests [.request c] = 1 from rfl]
    push_cast
    constructor <;> linarith
  sleep tr seconds := by
    rw [slept_append, requests_append, show slept [.sleep_for seconds] = seconds from add_zero seconds,
      show requests [.sleep_for seconds] = 0 from rfl]
    push_cast
    constructor <;> linarith

/-- The job completes three seconds after the clock begins. -/
def completesAtThree : Env ClientAns := fun tr op =>
  match op with
  | .request (.get path) => .ok (if 3 ≤ halfSecond.now (tr ++ [.request (.get path)]) then completedReply else runningReply)
  | .request (.post _ _) => .ok []
  | .request (.del _) => .ok ()
  | .sleep_for _ => ()

theorem wait_reports_sample :
    ∃ calls, (waitForJobResult replyLib sampleJob 5).exec completesAtThree [] =
        (fetchJobResult replyLib sampleJob).exec completesAtThree calls ∧
      3 ≤ halfSecond.now calls ∧ halfSecond.now calls ≤ 13 / 2 := by
  have hends : EndsAt halfSecond replyLib completesAtThree sampleJob 3 (str "COMPLETED") := by
    intro tr
    refine ⟨_, (halfSecond.request tr _).1, le_rfl, ?_⟩
    unfold polled completesAtThree
    dsimp only
    split_ifs with hended
    · exact ⟨str "COMPLETED", by decide, rfl⟩
    · exact ⟨str "RUNNING", by decide, by decide⟩
  have hnow : halfSecond.now [] = 0 := by norm_num [halfSecond, slept, requests]
  have hpolls : polls 5 = 3 := rfl
  obtain ⟨-, hreports, -⟩ := wait_reports halfSecond (by decide) hends 5 []
  rw [hnow, hpolls] at hreports
  obtain ⟨calls, hexec, hended, hsoon, -⟩ := hreports (by decide) (by norm_num)
  refine ⟨calls, ?_, hended, hsoon.trans ?_⟩
  · rw [hexec]
    exact if_pos rfl
  · rw [hnow]
    norm_num

end MQSSClient

end MqssClient
