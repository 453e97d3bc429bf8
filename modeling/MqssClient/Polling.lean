import MqssClient.Client

/-!
# Waiting longer

Two runs of the polling loop, against one history of replies, with different timeouts.

* `polls`: how often the loop asks at most; `wait_induction`: induction along its rounds;
* `exec_waitForJobResult_mono`: a result is delivered under every timeout that allows as many polls;
* `exec_waitForJobResult_skip`: a job that is running for a number of polls uses up that many;
* `returns_waitForJobResult`: the replies with which it throws nothing;
* `waits_iff`: the timeouts for which waiting longer never loses a result.
-/

namespace MqssClient

open Foundations

namespace MQSSClient

/-- How often the loop asks at most. -/
def polls (timeout : Int) : Nat := ((timeout + 1) / 2).toNat

theorem polls_pos_iff {timeout : Int} : 0 < polls timeout ↔ 0 < timeout := by
  unfold polls
  omega

theorem polls_sub (timeout : Int) : polls (timeout - min timeout pollSeconds) = polls timeout - 1 := by
  unfold polls pollSeconds
  omega

theorem polls_of_pos {timeout : Int} (h : 0 < timeout) : polls timeout = polls (timeout - min timeout pollSeconds) + 1 := by
  have hpos := polls_pos_iff.mpr h
  rw [polls_sub]
  omega

section Mono

variable (lib : JsonLib) (env : Env ClientAns) (job : JobRequest)

/-- Induction along the rounds of the loop, with a case for each way it goes on. -/
@[elab_as_elim]
theorem wait_induction {motive : Int → List ClientCall → Prop}
    (timeout : ∀ t tr, ¬ 0 < t → motive t tr)
    (error : ∀ t tr e, 0 < t → polled lib env tr job = .error e → motive t tr)
    (completed : ∀ t tr, 0 < t → polled lib env tr job = .ok (str "COMPLETED") → motive t tr)
    (failure : ∀ t tr status, 0 < t → polled lib env tr job = .ok status → isFailure status → motive t tr)
    (running : ∀ t tr status, 0 < t → polled lib env tr job = .ok status → isRunning status →
      motive (t - min t pollSeconds) (tr ++ [.request (.get (statusPath job)), .sleep_for (min t pollSeconds)]) →
      motive t tr)
    (t : Int) (tr : List ClientCall) : motive t tr := by
  induction hn : polls t generalizing t tr with
  | zero => exact timeout t tr fun hpos => by rw [polls_of_pos hpos] at hn; cases hn
  | succ n ih =>
    have hpos : 0 < t := polls_pos_iff.mp (by omega)
    cases hs : polled lib env tr job with
    | error e => exact error t tr e hpos hs
    | ok status =>
      rcases status_cases status with rfl | hf | hrun
      · exact completed t tr hpos hs
      · exact failure t tr status hpos hs hf
      · exact running t tr status hpos hs hrun (ih _ _ (by rw [polls_of_pos hpos] at hn; exact Nat.succ.inj hn))

/-- A result delivered under one timeout is delivered, in the same run, under every one that allows as many polls. -/
theorem exec_waitForJobResult_mono {r : JobResult} {t1 t2 : Int} (tr : List ClientCall) (hle : polls t1 ≤ polls t2)
    (hr : ((waitForJobResult lib job t1).exec env tr).1 = .ok (some r)) :
    (waitForJobResult lib job t2).exec env tr = (waitForJobResult lib job t1).exec env tr := by
  induction t1, tr using wait_induction lib env job generalizing t2 with
  | timeout t1 tr h1 =>
    rw [exec_waitForJobResult_timeout lib h1] at hr
    cases hr
  | error t1 tr e h1 hs =>
    rw [exec_waitForJobResult_error lib h1 hs] at hr
    cases hr
  | completed t1 tr h1 hs =>
    have h2 : 0 < t2 := polls_pos_iff.mp (lt_of_lt_of_le (polls_pos_iff.mpr h1) hle)
    rw [exec_waitForJobResult_completed lib h1 hs, exec_waitForJobResult_completed lib h2 hs]
  | failure t1 tr status h1 hs hf =>
    rw [exec_waitForJobResult_failure lib h1 hs hf] at hr
    cases hr
  | running t1 tr status h1 hs hrun ih =>
    have h2 : 0 < t2 := polls_pos_iff.mp (lt_of_lt_of_le (polls_pos_iff.mpr h1) hle)
    rw [exec_waitForJobResult_running lib h1 hs hrun] at hr ⊢
    rw [exec_waitForJobResult_running lib h2 hs hrun]
    have hpos : 0 < polls (t1 - min t1 pollSeconds) := by
      by_contra h0
      rw [exec_waitForJobResult_timeout lib (by rw [← polls_pos_iff]; exact h0)] at hr
      cases hr
    -- the round is not the last one of either run, so both sleep for the whole interval
    have hlong1 : min t1 pollSeconds = pollSeconds := by
      unfold polls pollSeconds at *
      omega
    have hlong2 : min t2 pollSeconds = pollSeconds := by
      rw [polls_sub] at hpos
      unfold polls pollSeconds at *
      omega
    have hn1 := polls_sub t1
    have hn2 := polls_sub t2
    rw [hlong1] at hr hn1 ih ⊢
    rw [hlong2] at hn2 ⊢
    exact ih (by omega) hr

end Mono

section History

variable (lib : JsonLib) (job : JobRequest)

@[simp] theorem requests_append (tr tr' : List ClientCall) : requests (tr ++ tr') = requests tr + requests tr' :=
  List.countP_append

/-- While the replies say that the job is running, each poll brings the loop one reply further. -/
theorem exec_waitForJobResult_skip {h : History} {running : Bytes} (hd : decodeStatus lib running = .ok (str "RUNNING"))
    (n : Nat) (tr : List ClientCall) (t : Int) (hn : n ≤ polls t)
    (hh : ∀ i < n, h (requests tr + i) (.get (statusPath job)) = .ok running) :
    ∃ t' tr', polls t' = polls t - n ∧ requests tr' = requests tr + n ∧
      (waitForJobResult lib job t).exec h.env tr = (waitForJobResult lib job t').exec h.env tr' := by
  induction n generalizing tr t with
  | zero => exact ⟨t, tr, rfl, rfl, rfl⟩
  | succ n ih =>
    have hpos : 0 < t := polls_pos_iff.mp (by omega)
    have hs : polled lib h.env tr job = .ok (str "RUNNING") := by
      rw [polled, ← hd]
      show (h (requests tr) (.get (statusPath job)) >>= _) = _
      rw [← Nat.add_zero (requests tr), hh 0 (by omega)]
      rfl
    set tr1 := tr ++ [.request (.get (statusPath job)), .sleep_for (min t pollSeconds)] with htr1
    have hreq : requests tr1 = requests tr + 1 := by
      rw [htr1, requests_append]
      rfl
    obtain ⟨t', tr', ht', htr', heq⟩ := ih tr1 (t - min t pollSeconds) (by rw [polls_sub]; omega)
      fun i hi => by rw [hreq, Nat.add_assoc, Nat.add_comm 1]; exact hh (i + 1) (by omega)
    refine ⟨t', tr', by rw [ht', polls_sub]; omega, by omega, ?_⟩
    rw [exec_waitForJobResult_running lib hpos hs (by decide), ← htr1, heq]

end History

/-! ## When waiting throws nothing -/

section Returns

variable (lib : JsonLib) (job : JobRequest) (h : History)

/-- The status read by the request of a given number. -/
def statusAt (n : Nat) : Except Exn Bytes := h n (.get (statusPath job)) >>= decodeStatus lib

/-- What is delivered by the result request of a given number. -/
def resultAt (n : Nat) : Except Exn (Option JobResult) := h n (.get (resultPath job)) >>= decodeResult lib

/-- From the request `base` on: every poll made after running ones reads a status, and after a completed one the result
is decoded. -/
def WaitReturns (base n : Nat) : Prop :=
  ∀ k < n, (∀ i < k, ∃ s, statusAt lib job h (base + i) = .ok s ∧ isRunning s) →
    ∃ s, statusAt lib job h (base + k) = .ok s ∧
      (s = str "COMPLETED" → Returns (resultAt lib job h (base + k + 1)))

/-- After a poll that ends the loop, only that poll counts. -/
theorem waitReturns_succ_of_stop {base n : Nat} {s : Bytes} (hs : statusAt lib job h base = .ok s)
    (hstop : isRunning s = false) :
    WaitReturns lib job h base (n + 1) ↔ (s = str "COMPLETED" → Returns (resultAt lib job h (base + 1))) := by
  constructor
  · intro hw
    obtain ⟨s', hs', hr⟩ := hw 0 (Nat.succ_pos n) (fun i hi => absurd hi (Nat.not_lt_zero i))
    obtain rfl : s = s' := by simpa using hs.symm.trans hs'
    exact hr
  · intro hr k _ hrun
    rcases Nat.eq_zero_or_pos k with rfl | hk
    · exact ⟨s, hs, hr⟩
    · obtain ⟨s', hs', hrun'⟩ := hrun 0 hk
      obtain rfl : s = s' := by simpa using hs.symm.trans hs'
      rw [hstop] at hrun'
      cases hrun'

theorem waitReturns_succ_of_running {base n : Nat} {s : Bytes} (hs : statusAt lib job h base = .ok s)
    (hrun : isRunning s = true) : WaitReturns lib job h base (n + 1) ↔ WaitReturns lib job h (base + 1) n := by
  have hc : s ≠ str "COMPLETED" := by
    rintro rfl
    exact absurd hrun (by decide)
  have hshift : ∀ k, base + 1 + k = base + (k + 1) := fun k => by omega
  unfold WaitReturns
  simp only [hshift]
  constructor
  · intro hw k hk hprev
    refine hw (k + 1) (by omega) fun i hi => ?_
    cases i with
    | zero => exact ⟨s, hs, hrun⟩
    | succ i => exact hprev i (by omega)
  · intro hw k hk hprev
    cases k with
    | zero => exact ⟨s, hs, fun heq => absurd heq hc⟩
    | succ k => exact hw k (by omega) fun i hi => hprev (i + 1) (by omega)

theorem returns_waitForJobResult (t : Int) (tr : List ClientCall) :
    Returns ((waitForJobResult lib job t).exec h.env tr).1 ↔ WaitReturns lib job h (requests tr) (polls t) := by
  induction t, tr using wait_induction lib h.env job with
  | timeout t tr ht =>
    rw [exec_waitForJobResult_timeout lib ht]
    refine iff_of_true (returns_ok _) fun k hk => ?_
    exact absurd (polls_pos_iff.mp (Nat.zero_lt_of_lt hk)) ht
  | error t tr e hpos hs =>
    rw [exec_waitForJobResult_error lib hpos hs]
    refine iff_of_false (not_returns_error _) fun hw => ?_
    obtain ⟨s, hs', -⟩ := hw 0 (polls_pos_iff.mpr hpos) (fun i hi => absurd hi (Nat.not_lt_zero i))
    cases hs.symm.trans hs'
  | completed t tr hpos hs =>
    rw [exec_waitForJobResult_completed lib hpos hs, polls_of_pos hpos,
      waitReturns_succ_of_stop lib job h hs (by decide), fetchJobResult, exec_getAnd]
    have hreq : requests (tr ++ [.request (.get (statusPath job))]) = requests tr + 1 := List.countP_append
    show Returns (resultAt lib job h (requests (tr ++ _))) ↔ _
    rw [hreq]
    exact ⟨fun hr _ => hr, fun hr => hr rfl⟩
  | failure t tr status hpos hs hf =>
    have hstop : isRunning status = false := by simp [isRunning, hf]
    rw [exec_waitForJobResult_failure lib hpos hs hf, polls_of_pos hpos, waitReturns_succ_of_stop lib job h hs hstop]
    refine iff_of_true (returns_ok _) fun heq => ?_
    rw [heq] at hf
    exact absurd hf (by decide)
  | running t tr status hpos hs hrun ih =>
    have hreq : requests (tr ++ [.request (.get (statusPath job)), .sleep_for (min t pollSeconds)]) =
        requests tr + 1 := List.countP_append
    rw [exec_waitForJobResult_running lib hpos hs hrun, ih, polls_of_pos hpos,
      waitReturns_succ_of_running lib job h hs hrun, hreq]

end Returns

/-! ## A job that completes after a number of polls -/

def runningReply : Bytes := str "\x7b\"status\":\"RUNNING\"\x7d"

def completedReply : Bytes := str "\x7b\"status\":\"COMPLETED\"\x7d"

def countsText : Bytes := str "\x7b\"0\":1\x7d"

def resultReply : Bytes :=
  str "\x7b\"result\":\"\x7b\\\"0\\\":1\x7d\",\"timestamp_completed\":\"\"," ++
    str "\"timestamp_scheduled\":\"\",\"timestamp_submitted\":\"\"\x7d"

/-- A library for these texts. -/
def replyLib : JsonLib := .ofTable [
  (runningReply, .object [(str "status", .string (str "RUNNING"))]),
  (completedReply, .object [(str "status", .string (str "COMPLETED"))]),
  (countsText, .object [(str "0", .numberUnsigned 1)]),
  (resultReply, .object [(str "result", .string countsText), (str "timestamp_completed", .string []),
    (str "timestamp_scheduled", .string []), (str "timestamp_submitted", .string [])])] (by decide)

/-- The history in which the job is running for `n` polls, completed at the next, and then has a result. -/
def completesAfter (n : Nat) : History := fun i c =>
  match c with
  | .get _ => .ok (if i < n then runningReply else if i = n then completedReply else resultReply)
  | .post _ _ => .ok []
  | .del _ => .ok ()

def delivered : JobResult := ⟨[.ofEntries [(str "0", 1)]], [], [], []⟩

section CompletesAfter

variable (job : JobRequest)

theorem decodeStatus_runningReply : decodeStatus replyLib runningReply = .ok (str "RUNNING") := by decide

theorem completesAfter_running {n : Nat} (i : Nat) (hi : i < n) :
    completesAfter n (requests [] + i) (.get (statusPath job)) = .ok runningReply := by
  show Except.ok (if requests [] + i < n then _ else _) = _
  rw [if_pos (by simpa [requests] using hi)]

theorem completesAfter_delivers {n : Nat} {t : Int} (h : n < polls t) :
    ((waitForJobResult replyLib job t).exec (completesAfter n).env []).1 = .ok (some delivered) := by
  obtain ⟨t', tr, ht, htr, heq⟩ :=
    exec_waitForJobResult_skip replyLib job decodeStatus_runningReply n [] t (by omega) (completesAfter_running job)
  have htr : requests tr = n := by simpa [requests] using htr
  have hpoll : polled replyLib (completesAfter n).env tr job = .ok (str "COMPLETED") := by
    show decodeStatus replyLib (if requests tr < n then _ else if requests tr = n then _ else _) = _
    rw [htr, if_neg (by omega), if_pos rfl]
    decide
  rw [heq, exec_waitForJobResult_completed replyLib (polls_pos_iff.mp (by omega)) hpoll, fetchJobResult, exec_getAnd]
  show decodeResult replyLib (if requests (tr ++ _) < n then _ else if requests (tr ++ _) = n then _ else _) = _
  have hreq : requests (tr ++ [.request (.get (statusPath job))]) = n + 1 := by
    rw [requests_append, htr]
    rfl
  rw [hreq, if_neg (by omega), if_neg (by omega)]
  decide

theorem completesAfter_gives_up {n : Nat} {t : Int} (h : polls t ≤ n) :
    ((waitForJobResult replyLib job t).exec (completesAfter n).env []).1 = .ok none := by
  obtain ⟨t', tr, ht, -, heq⟩ :=
    exec_waitForJobResult_skip replyLib job decodeStatus_runningReply (polls t) [] t le_rfl fun i hi =>
      completesAfter_running job i (Nat.lt_of_lt_of_le hi h)
  rw [heq, exec_waitForJobResult_timeout replyLib (by rw [← polls_pos_iff]; omega)]

end CompletesAfter

/-! ## Timeouts of `getJobResult` -/

/-- The requests of a run. -/
def issued (tr : List ClientCall) : List ClientCall := tr.filter fun
  | .request _ => true
  | .sleep_for _ => false

/-- Against any history, a result delivered under the timeout `t1` is delivered under `t2`, by the same requests. -/
def KeepsResult (job : JobRequest) (t1 t2 : UInt64) : Prop :=
  ∀ (lib : JsonLib) (h : History) (r : JobResult),
    ((getJobResult lib job true t1).exec h.env []).1 = .ok (some r) →
    ((getJobResult lib job true t2).exec h.env []).1 = .ok (some r) ∧
      issued ((getJobResult lib job true t2).exec h.env []).2 = issued ((getJobResult lib job true t1).exec h.env []).2

/-- Against any history, waiting under the timeout `t` asks for the status. -/
def AsksStatus (job : JobRequest) (t : UInt64) : Prop :=
  ∀ (lib : JsonLib) (h : History),
    .request (.get (statusPath job)) ∈ ((getJobResult lib job true t).exec h.env []).2

theorem exec_getJobResult_wait (lib : JsonLib) (env : Env ClientAns) (job : JobRequest) (t : UInt64) :
    (getJobResult lib job true t).exec env [] = (waitForJobResult lib job (toInt t.toNat)).exec env [] := by
  rw [getJobResult, if_pos rfl]

theorem keepsResult_of_polls_le {job : JobRequest} {t1 t2 : UInt64}
    (h : polls (toInt t1.toNat) ≤ polls (toInt t2.toNat)) : KeepsResult job t1 t2 := by
  intro lib hist r hr
  rw [exec_getJobResult_wait] at hr ⊢
  rw [exec_getJobResult_wait, exec_waitForJobResult_mono lib hist.env job [] h hr]
  exact ⟨hr, rfl⟩

theorem not_keepsResult {job : JobRequest} {t1 t2 : UInt64}
    (h : polls (toInt t2.toNat) < polls (toInt t1.toNat)) : ¬ KeepsResult job t1 t2 := by
  intro hk
  have h2 := (hk replyLib (completesAfter (polls (toInt t2.toNat))) delivered (by
    rw [exec_getJobResult_wait, completesAfter_delivers job h])).1
  rw [exec_getJobResult_wait, completesAfter_gives_up job le_rfl] at h2
  cases h2

theorem asksStatus_iff {job : JobRequest} {t : UInt64} : AsksStatus job t ↔ 0 < toInt t.toNat := by
  constructor
  · intro ha
    by_contra hn
    have hmem := ha replyLib (completesAfter 0)
    rw [exec_getJobResult_wait, exec_waitForJobResult_timeout replyLib hn] at hmem
    cases hmem
  · intro hpos lib h
    rw [exec_getJobResult_wait]
    have hmem : ClientCall.request (.get (statusPath job)) ∈ ([] ++ [.request (.get (statusPath job))]) :=
      List.mem_singleton_self _
    cases hs : polled lib h.env [] job with
    | error e =>
      rw [exec_waitForJobResult_error lib hpos hs]
      exact hmem
    | ok status =>
      rcases status_cases status with rfl | hf | hrun
      · rw [exec_waitForJobResult_completed lib hpos hs]
        exact (Prog.prefix_exec ..).mem hmem
      · rw [exec_waitForJobResult_failure lib hpos hs hf]
        exact hmem
      · rw [exec_waitForJobResult_running lib hpos hs hrun]
        exact (Prog.prefix_exec ..).mem List.mem_cons_self

/-- Up to the largest `int`, waiting longer never loses a result. -/
theorem keepsResult_of_le {job : JobRequest} {t1 t2 : UInt64} (hle : t1 ≤ t2) (h2 : t2.toNat < 2 ^ 31) :
    KeepsResult job t1 t2 := by
  refine keepsResult_of_polls_le ?_
  rw [UInt64.le_iff_toNat_le] at hle
  rw [toInt_of_bounds (by omega) (by omega), toInt_of_bounds (by omega) (by omega)]
  unfold polls
  omega

/-- The timeouts for which the longer wait keeps the result: what counts is the number of polls that is left of each
after its conversion to `int`. -/
theorem waits_iff (job : JobRequest) (t1 t2 : UInt64) :
    (KeepsResult job t1 t2 ↔ polls (toInt t1.toNat) ≤ polls (toInt t2.toNat)) ∧
      (AsksStatus job t2 ↔ 0 < toInt t2.toNat) :=
  ⟨⟨fun hk => not_lt.mp fun hlt => not_keepsResult hlt hk, keepsResult_of_polls_le⟩, asksStatus_iff⟩

/-- One second keeps a result that `2 ^ 31` seconds lose: as an `int` they are negative. -/
theorem not_waits : ∃ (job : JobRequest) (t1 t2 : UInt64),
    0 < t1 ∧ t1 ≤ t2 ∧ t2.toNat < 2 ^ 32 ∧ ¬ KeepsResult job t1 t2 ∧ ¬ AsksStatus job t2 :=
  ⟨⟨str "1", .hamiltonian ⟨[], [], []⟩⟩, 1, 2 ^ 31, by decide, by decide, by decide, not_keepsResult (by decide),
    fun ha => absurd (asksStatus_iff.mp ha) (by decide)⟩

end MQSSClient

end MqssClient
