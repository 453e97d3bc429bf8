import MqssClient.Polling

/-!
# The polling loop, end to end

What a whole run of `waitForJobResult` does, for every timeout and every sequence of statuses.

* `rounds`: the calls of the rounds after which the loop goes on; `remaining`: what they leave of the timeout;
* `exec_rounds`: a run passes through these rounds;
* `Waited`: the requests and the seconds of a list of calls; `waited_rounds`: those of the rounds;
* `waitForJobResult_run`: the three ways in which a run ends.
-/

namespace MqssClient

open Foundations

namespace MQSSClient

/-- The statuses after which the loop ends. -/
def finalStatuses : List Bytes := [str "COMPLETED", str "FAILED", str "CANCELLED", []]

theorem isRunning_iff {status : Bytes} : isRunning status = true ↔ status ∉ finalStatuses := by
  simp [isRunning, isFailure, finalStatuses, and_assoc]

theorem isFailure_iff {status : Bytes} : isFailure status = true ↔ status ∈ finalStatuses ∧ status ≠ str "COMPLETED" := by
  have hempty : ([] : Bytes) ≠ str "COMPLETED" := by decide
  have hfailed : str "FAILED" ≠ str "COMPLETED" := by decide
  have hcancelled : str "CANCELLED" ≠ str "COMPLETED" := by decide
  simp only [isFailure, finalStatuses, Bool.or_eq_true, decide_eq_true_eq, List.isEmpty_iff, List.mem_cons,
    List.not_mem_nil, or_false]
  constructor
  · rintro ((rfl | rfl) | rfl)
    · exact ⟨Or.inr (Or.inl rfl), hfailed⟩
    · exact ⟨Or.inr (Or.inr (Or.inl rfl)), hcancelled⟩
    · exact ⟨Or.inr (Or.inr (Or.inr rfl)), hempty⟩
  · rintro ⟨rfl | h | h | h, hne⟩
    · exact absurd rfl hne
    · exact Or.inl (Or.inl h)
    · exact Or.inl (Or.inr h)
    · exact Or.inr h

/-! ## Rounds after which the loop goes on -/

/-- What `k` rounds leave of the timeout. -/
def remaining (timeout : Int) : Nat → Int
  | 0 => timeout
  | k + 1 => remaining (timeout - min timeout pollSeconds) k

/-- The calls of `k` rounds. -/
def rounds (job : JobRequest) (timeout : Int) : Nat → List ClientCall
  | 0 => []
  | k + 1 =>
    .request (.get (statusPath job)) :: .sleep_for (min timeout pollSeconds) ::
      rounds job (timeout - min timeout pollSeconds) k

theorem remaining_nonneg {timeout : Int} (h : 0 ≤ timeout) (k : Nat) : 0 ≤ remaining timeout k := by
  induction k generalizing timeout with
  | zero => exact h
  | succ k ih => exact ih (by omega)

theorem polls_remaining (timeout : Int) (k : Nat) : polls (remaining timeout k) = polls timeout - k := by
  induction k generalizing timeout with
  | zero => rfl
  | succ k ih =>
    rw [remaining, ih, polls_sub]
    omega

theorem remaining_of_lt {timeout : Int} {k : Nat} (h : k < polls timeout) : remaining timeout k = timeout - 2 * k := by
  induction k generalizing timeout with
  | zero => simp [remaining]
  | succ k ih =>
    rw [remaining, ih (by rw [polls_sub]; omega)]
    unfold polls at h
    unfold pollSeconds
    omega

/-- The rounds together use up a timeout that is not negative. -/
theorem remaining_polls (timeout : Int) : remaining timeout (polls timeout) = min timeout 0 := by
  induction hn : polls timeout generalizing timeout with
  | zero =>
    have hpos := (not_congr polls_pos_iff).mp (by omega : ¬ 0 < polls timeout)
    rw [remaining]
    omega
  | succ n ih =>
    have hpos : 0 < timeout := polls_pos_iff.mp (by omega)
    rw [remaining, ih _ (by rw [polls_sub]; omega)]
    omega

/-! ## The requests and the seconds of a run -/

/-- The seconds that are slept in all. -/
def slept (calls : List ClientCall) : Int := (calls.map fun
  | .request _ => 0
  | .sleep_for seconds => seconds).sum

/-- The calls make `n` status requests, `m` result requests and no others, and sleep for so many seconds. -/
structure Waited (job : JobRequest) (calls : List ClientCall) (n m : Nat) (seconds : Int) : Prop where
  statuses : calls.count (.request (.get (statusPath job))) = n
  results : calls.count (.request (.get (resultPath job))) = m
  requests : requests calls = n + m
  slept : slept calls = seconds

section Waited

variable {job : JobRequest} {calls calls' : List ClientCall} {n n' m m' : Nat} {sec sec' : Int}

theorem statusPath_ne_resultPath (job : JobRequest) : statusPath job ≠ resultPath job := fun h =>
  absurd (List.append_cancel_left h) (by decide)

theorem Waited.append (h : Waited job calls n m sec) (h' : Waited job calls' n' m' sec') :
    Waited job (calls ++ calls') (n + n') (m + m') (sec + sec') where
  statuses := by rw [List.count_append, h.statuses, h'.statuses]
  results := by rw [List.count_append, h.results, h'.results]
  requests := by
    rw [requests_append, h.requests, h'.requests]
    omega
  slept := by
    rw [MQSSClient.slept, List.map_append, List.sum_append]
    exact congrArg₂ (· + ·) h.slept h'.slept

theorem waited_status (job : JobRequest) : Waited job [.request (.get (statusPath job))] 1 0 0 where
  statuses := by simp
  results := by simp [statusPath_ne_resultPath job]
  requests := rfl
  slept := rfl

theorem waited_sleep (job : JobRequest) (seconds : Int) : Waited job [.sleep_for seconds] 0 0 seconds where
  statuses := by simp
  results := by simp
  requests := rfl
  slept := by simp [MQSSClient.slept]

theorem waited_rounds (job : JobRequest) (timeout : Int) (k : Nat) :
    Waited job (rounds job timeout k) k 0 (timeout - remaining timeout k) := by
  induction k generalizing timeout with
  | zero => exact ⟨rfl, rfl, rfl, (Int.sub_self timeout).symm⟩
  | succ k ih =>
    have h := ((waited_status job).append (waited_sleep job (min timeout pollSeconds))).append
      (ih (timeout - min timeout pollSeconds))
    refine ⟨h.statuses.trans (by omega), h.results, h.requests.trans (by omega), h.slept.trans ?_⟩
    rw [remaining]
    omega

theorem waited_rounds_of_lt {timeout : Int} {k : Nat} (job : JobRequest) (h : k < polls timeout) :
    Waited job (rounds job timeout k) k 0 (2 * k) := by
  have hrounds := waited_rounds job timeout k
  rwa [remaining_of_lt h, Int.sub_sub_self] at hrounds

theorem waited_rounds_polls (job : JobRequest) (timeout : Int) :
    Waited job (rounds job timeout (polls timeout)) (polls timeout) 0 (max timeout 0) := by
  have hrounds := waited_rounds job timeout (polls timeout)
  rw [remaining_polls] at hrounds
  have hsec : timeout - min timeout 0 = max timeout 0 := by omega
  rwa [hsec] at hrounds

end Waited

/-! ## Whole runs -/

section Run

variable (lib : JsonLib) (job : JobRequest) (h : History) {s : Nat → Bytes} {timeout : Int} {tr : List ClientCall} {k : Nat}

/-- While the statuses are not final, a run passes through one round after the other. -/
theorem exec_rounds (hk : k ≤ polls timeout)
    (hs : ∀ i < k, statusAt lib job h (requests tr + i) = .ok (s i) ∧ s i ∉ finalStatuses) :
    (waitForJobResult lib job timeout).exec h.env tr =
      (waitForJobResult lib job (remaining timeout k)).exec h.env (tr ++ rounds job timeout k) := by
  induction k generalizing timeout tr s with
  | zero => rw [remaining, rounds, List.append_nil]
  | succ k ih =>
    obtain ⟨hstatus, hrun⟩ : polled lib h.env tr job = .ok (s 0) ∧ _ := hs 0 (Nat.succ_pos k)
    have hpos : 0 < timeout := polls_pos_iff.mp (by omega)
    set tr1 := tr ++ [.request (.get (statusPath job)), .sleep_for (min timeout pollSeconds)] with htr1
    have hreq : requests tr1 = requests tr + 1 := by
      rw [htr1, requests_append]
      rfl
    rw [exec_waitForJobResult_running lib hpos hstatus (isRunning_iff.mpr hrun), ← htr1,
      ih (by rw [polls_sub]; omega) fun i hi => ?_]
    · rw [remaining, rounds, htr1, List.append_assoc]
      rfl
    · exact fun i => s (i + 1)
    · rw [hreq, Nat.add_assoc, Nat.add_comm 1]
      exact hs (i + 1) (by omega)

theorem polled_rounds (hk : k < polls timeout) (hs : ∀ i < polls timeout, statusAt lib job h (requests tr + i) = .ok (s i)) :
    polled lib h.env (tr ++ rounds job timeout k) job = .ok (s k) := by
  have hreq : requests (tr ++ rounds job timeout k) = requests tr + k := by
    rw [requests_append, (waited_rounds job timeout k).requests, Nat.add_zero]
  rw [← hs k hk, ← hreq]
  rfl

variable (hs : ∀ i < polls timeout, statusAt lib job h (requests tr + i) = .ok (s i))

include hs

theorem exec_timeout (hrun : ∀ i < polls timeout, s i ∉ finalStatuses) :
    (waitForJobResult lib job timeout).exec h.env tr = (.ok none, tr ++ rounds job timeout (polls timeout)) := by
  rw [exec_rounds lib job h le_rfl fun i hi => ⟨hs i hi, hrun i hi⟩, exec_waitForJobResult_timeout]
  rw [remaining_polls]
  omega

variable (hk : k < polls timeout) (hrun : ∀ i < k, s i ∉ finalStatuses)

include hk hrun

theorem exec_completed (hc : s k = str "COMPLETED") :
    (waitForJobResult lib job timeout).exec h.env tr =
      (fetchJobResult lib job).exec h.env (tr ++ rounds job timeout k ++ [.request (.get (statusPath job))]) := by
  have hpos : 0 < remaining timeout k := polls_pos_iff.mp (by rw [polls_remaining]; omega)
  rw [exec_rounds lib job h hk.le fun i hi => ⟨hs i (by omega), hrun i hi⟩, exec_waitForJobResult_completed lib hpos]
  rw [polled_rounds lib job h hk hs, hc]

theorem exec_failure (hf : isFailure (s k)) :
    (waitForJobResult lib job timeout).exec h.env tr =
      (.ok none, tr ++ rounds job timeout k ++ [.request (.get (statusPath job))]) := by
  have hpos : 0 < remaining timeout k := polls_pos_iff.mp (by rw [polls_remaining]; omega)
  rw [exec_rounds lib job h hk.le fun i hi => ⟨hs i (by omega), hrun i hi⟩,
    exec_waitForJobResult_failure lib hpos (polled_rounds lib job h hk hs) hf]

end Run

/-- Half of the timeout, rounded up, unless it is negative. -/
theorem polls_eq (timeout : Int) : (polls timeout : Int) = max 0 (-(-timeout / 2)) := by
  unfold polls
  omega

/-- The least index below `n` of a final status. -/
def StopsAt (s : Nat → Bytes) (n k : Nat) : Prop := k < n ∧ (∀ i < k, s i ∉ finalStatuses) ∧ s k ∈ finalStatuses

/-- Against any history whose status requests read `s`, a run ends in one of three ways: no status is final and it waits
for the whole timeout; or the first final one is `COMPLETED` and it goes on as `getJobResult` without waiting; or it is
another one. In between, what is left of a timeout does not become negative. -/
theorem waitForJobResult_run (lib : JsonLib) (job : JobRequest) (h : History) (timeout : Int) (tr : List ClientCall)
    (s : Nat → Bytes) (hs : ∀ i < polls timeout, statusAt lib job h (requests tr + i) = .ok (s i)) :
    (polls timeout : Int) = max 0 (-(-timeout / 2)) ∧
    ((∀ i < polls timeout, s i ∉ finalStatuses) →
      ∃ calls, (waitForJobResult lib job timeout).exec h.env tr = (.ok none, tr ++ calls) ∧
        Waited job calls (polls timeout) 0 (max timeout 0)) ∧
    (∀ k, StopsAt s (polls timeout) k → s k = str "COMPLETED" →
      ∃ calls, Waited job calls (k + 1) 0 (2 * k) ∧
        ((waitForJobResult lib job timeout).exec h.env tr).2 = tr ++ calls ++ [.request (.get (resultPath job))] ∧
        ∀ t, (waitForJobResult lib job timeout).exec h.env tr = (getJobResult lib job false t).exec h.env (tr ++ calls)) ∧
    (∀ k, StopsAt s (polls timeout) k → s k ≠ str "COMPLETED" →
      ∃ calls, (waitForJobResult lib job timeout).exec h.env tr = (.ok none, tr ++ calls) ∧
        Waited job calls (k + 1) 0 (2 * k)) ∧
    ∀ k ≤ polls timeout, (∀ i < k, s i ∉ finalStatuses) →
      (waitForJobResult lib job timeout).exec h.env tr =
          (waitForJobResult lib job (remaining timeout k)).exec h.env (tr ++ rounds job timeout k) ∧
        (0 < timeout → 0 ≤ remaining timeout k) := by
  have hpolled : ∀ k < polls timeout,
      Waited job (rounds job timeout k ++ [.request (.get (statusPath job))]) (k + 1) 0 (2 * k) := by
    intro k hk
    have hwaited := (waited_rounds_of_lt job hk).append (waited_status job)
    rwa [Int.add_zero] at hwaited
  refine ⟨polls_eq timeout, fun hrun => ?_, ?_, ?_, fun k hk hrun => ?_⟩
  · exact ⟨_, exec_timeout lib job h hs hrun, waited_rounds_polls job timeout⟩
  · rintro k ⟨hk, hrun, -⟩ hc
    have hexec := exec_completed lib job h hs hk hrun hc
    rw [List.append_assoc] at hexec
    refine ⟨_, hpolled k hk, ?_, fun t => hexec⟩
    rw [hexec]
    rfl
  · rintro k ⟨hk, hrun, hfinal⟩ hc
    have hexec := exec_failure lib job h hs hk hrun (isFailure_iff.mpr ⟨hfinal, hc⟩)
    rw [List.append_assoc] at hexec
    exact ⟨_, hexec, hpolled k hk⟩
  · exact ⟨exec_rounds lib job h hk fun i hi => ⟨hs i (by omega), hrun i hi⟩, fun hpos => remaining_nonneg hpos.le k⟩

/-- A submitted circuit. -/
def sampleJob : JobRequest := ⟨str "1", .circuit ⟨str "H 0", str "qasm", str "A", 100, false, false⟩⟩

/-- Five seconds for a job that completes at its second poll. -/
theorem waitForJobResult_run_sample :
    ∃ calls, Waited sampleJob calls 2 0 2 ∧ ∀ t, (waitForJobResult replyLib sampleJob 5).exec (completesAfter 1).env [] =
      (getJobResult replyLib sampleJob false t).exec (completesAfter 1).env calls := by
  have hs : ∀ i < polls 5, statusAt replyLib sampleJob (completesAfter 1) (requests [] + i) =
      .ok (if i = 0 then str "RUNNING" else if i = 1 then str "COMPLETED" else []) := by
    intro i hi
    show decodeStatus replyLib (if requests [] + i < 1 then _ else if requests [] + i = 1 then _ else _) = _
    have hcases : i = 0 ∨ i = 1 ∨ i = 2 := by
      have hpolls : polls 5 = 3 := rfl
      omega
    rcases hcases with rfl | rfl | rfl <;> decide
  obtain ⟨calls, hwaited, -, hexec⟩ := (waitForJobResult_run replyLib sampleJob (completesAfter 1) 5 [] _ hs).2.2.1 1
    ⟨by decide, by decide, by decide⟩ rfl
  exact ⟨calls, hwaited, hexec⟩

end MQSSClient

end MqssClient
