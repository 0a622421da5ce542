import Caretaker.Proofs.Attempts

/-!
# Carrying out a plan

A plan starts the check first, if there is one, and the target only after a check that has
succeeded. What it comes to is what the last child says.
-/

namespace Caretaker

/-! ## How children end -/

/-- The word of a child that has ended, with a code or by a signal, and the code by which a shell
reports such an end. A child that leaves a core says so with one more bit. -/
inductive WaitStatus.Ended : WaitStatus → ℕ → Prop where
  | exited {code : ℕ} : code < 256 → Ended ⟨code * 256⟩ code
  | killed {signal : ℕ} : 0 < signal → signal < 127 → Ended ⟨signal⟩ (128 + signal)
  | dumped {signal : ℕ} : 0 < signal → signal < 127 → Ended ⟨signal + 128⟩ (128 + signal)

namespace WaitStatus

/-- A child that has exited reports its code, -/
lemma reportedCode_of_exited {s : WaitStatus} {code : ℕ} (h : s.word % 128 = 0)
    (hcode : s.word / 256 % 256 = code) : s.reportedCode = code := by
  rw [reportedCode, code?, if_pos h, hcode]

/-- and one that a signal has ended reports 128 and the number of the signal. -/
lemma reportedCode_of_signal {s : WaitStatus} {signal : ℕ} (h : s.word % 128 = signal)
    (hpos : 0 < signal) (hlt : signal < 127) : s.reportedCode = (128 + signal : ℕ) := by
  rw [reportedCode, code?, signal?, h, if_neg (by omega), if_neg (by omega)]
  rfl

variable {s : WaitStatus} {code : ℕ}

lemma Ended.lt (h : s.Ended code) : code < 256 := by
  cases h with
  | exited h => exact h
  | killed hpos hlt => omega
  | dumped hpos hlt => omega

lemma Ended.reportedCode_eq (h : s.Ended code) : s.reportedCode = code := by
  cases h with
  | exited h => exact reportedCode_of_exited (by dsimp only; omega) (by dsimp only; omega)
  | killed hpos hlt => exact reportedCode_of_signal (by dsimp only; omega) hpos hlt
  | dumped hpos hlt => exact reportedCode_of_signal (by dsimp only; omega) hpos hlt

lemma Ended.success_iff (h : s.Ended code) : s.success ↔ code = 0 := by
  rw [WaitStatus.success, beq_iff_eq]
  cases h with
  | exited h => dsimp only; omega
  | killed hpos hlt => dsimp only; omega
  | dumped hpos hlt => dsimp only; omega

end WaitStatus

/-- Children whose ends are told as the operating system tells them. -/
def Children.End (children : Children) : Prop :=
  ∀ l m status, (children l m).1 = .ok status → ∃ code, status.Ended code

/-- The statuses that a machine hands on are those of its children. -/
lemma Children.End.start {children : Children} (h : children.End) {m : Machine} {l : Launch}
    {status : WaitStatus} (hs : (m.start children l).1 = .ok status) :
    ∃ code, status.Ended code := by
  rw [Machine.start] at hs
  split_ifs at hs
  exact h l _ status hs

/-! ## One child -/

/-- The attempt to start a child on a machine. -/
def Machine.attempt (children : Children) (m : Machine) (l : Launch) : Attempt :=
  ⟨l, m, (m.start children l).1⟩

variable (children : Children) (m : Machine) (bindings : Bindings)

lemma Invocation.runAction_delegate (i : Invocation) :
    m.runAction children (i.delegate bindings) =
      match m.start children ⟨i, bindings⟩ with
      | (.ok status, m') => (.ok status, m')
      | (.error e, m') => (.error (.launchFailed i.program e), m') := by
  change m.run children (.call (.launch ⟨i, bindings⟩) _) = _
  rcases hstart : m.start children ⟨i, bindings⟩ with ⟨reply, m'⟩
  have hanswer : Machine.answer children (.launch ⟨i, bindings⟩) m = (reply, m') := hstart
  rw [m.run_call children _ hanswer]
  cases reply <;> rfl

lemma Invocation.attempts_delegate (i : Invocation) :
    m.attempts children (i.delegate bindings) = [m.attempt children ⟨i, bindings⟩] := by
  change m.attemptsOf children (.call (.launch ⟨i, bindings⟩) _) = _
  rw [Machine.attemptsOf]
  refine congrArg (List.cons _) ?_
  rcases Machine.answer children (.launch ⟨i, bindings⟩) m with ⟨_ | _, m'⟩ <;> rfl

/-! ## The children of a plan -/

/-- The attempts that a plan asks for: the target alone, or the check and then, if the check ran and
succeeded, the target. -/
def Plan.Followed (p : Plan) (bindings : Bindings) (attempts : List Attempt) : Prop :=
  match p.preCheck with
  | none => ∃ a, attempts = [a] ∧ a.launch = ⟨p.target, bindings⟩
  | some check =>
    (∃ a, attempts = [a] ∧ a.launch = ⟨check, bindings⟩ ∧ ¬ a.Succeeded) ∨
    ∃ a a', attempts = [a, a'] ∧ a.launch = ⟨check, bindings⟩ ∧ a.Succeeded ∧
      a'.launch = ⟨p.target, bindings⟩

/-- An outcome reports the last attempt: by the code with which its child has ended. -/
structure Outcome.Reports (o : Outcome) (attempts : List Attempt) : Prop where
  last : ∃ a status code, attempts.getLast? = some a ∧ a.reply = .ok status ∧ status.Ended code ∧
    o.exitCode = code
  success : o.success ↔ o.exitCode = 0
  statusByte : o.statusByte = 0 ↔ ∀ a ∈ attempts, a.Succeeded

/-- The outcome with the code of the last child, all others having succeeded. -/
lemma Outcome.reports_ofCode {attempts : List Attempt} {a : Attempt} {status : WaitStatus}
    {code : ℕ} (hlast : attempts.getLast? = some a) (hreply : a.reply = .ok status)
    (hended : status.Ended code) (hothers : ∀ b ∈ attempts.dropLast, b.Succeeded) :
    (Outcome.ofCode status.reportedCode).Reports attempts := by
  have hsucceeded : a.Succeeded ↔ code = 0 := by
    rw [← hended.success_iff]
    refine ⟨fun ⟨status', hok, hs⟩ => ?_, fun hs => ⟨status, hreply, hs⟩⟩
    rwa [Except.ok.inj (hreply.symm.trans hok)]
  have hlt := hended.lt
  have hbyte : (Outcome.ofCode status.reportedCode).statusByte = code := by
    rw [Outcome.statusByte, Outcome.exitCode_ofCode, hended.reportedCode_eq, if_pos (by omega)]
    rfl
  refine ⟨⟨a, status, code, hlast, hreply, hended, ?_⟩, ?_, ?_⟩
  · rw [Outcome.exitCode_ofCode, hended.reportedCode_eq]
  · rw [Outcome.success_ofCode, Outcome.exitCode_ofCode, decide_eq_true_eq]
  · rw [hbyte, ← hsucceeded]
    -- the others have succeeded, so that all have just if the last one has
    have hsplit := List.dropLast_append_getLast? a hlast
    constructor
    · intro ha b hb
      rw [← hsplit, List.mem_append, List.mem_singleton] at hb
      rcases hb with hb | rfl
      · exact hothers b hb
      · exact ha
    · exact fun hall => hall a (List.mem_of_getLast? hlast)

namespace Plan

variable (p : Plan)

/-- What is left of a plan behind the check. -/
def executeTarget : Action Outcome := do
  return .ofCode (← p.target.delegate bindings).reportedCode

lemma execute_of_none (h : p.preCheck = none) :
    p.execute bindings = p.executeTarget bindings := by
  rw [execute, h]
  rfl

lemma execute_of_some {check : Invocation} (h : p.preCheck = some check) :
    p.execute bindings = check.delegate bindings >>= fun status =>
      if status.success then p.executeTarget bindings else return .failed status.reportedCode := by
  rw [execute, h]
  refine congrArg (check.delegate bindings >>= ·) (funext fun status => ?_)
  cases status.success <;> rfl

lemma attempts_executeTarget : m.attempts children (p.executeTarget bindings) =
    [m.attempt children ⟨p.target, bindings⟩] := by
  rw [executeTarget, Machine.attempts_bind, Invocation.attempts_delegate]
  rcases m.runAction children (p.target.delegate bindings) with ⟨_ | _, m'⟩ <;> rfl

lemma runAction_executeTarget : m.runAction children (p.executeTarget bindings) =
    match m.start children ⟨p.target, bindings⟩ with
    | (.ok status, m') => (.ok (.ofCode status.reportedCode), m')
    | (.error e, m') => (.error (.launchFailed p.target.program e), m') := by
  rw [executeTarget, Machine.runAction_bind, Invocation.runAction_delegate]
  rcases m.start children ⟨p.target, bindings⟩ with ⟨_ | _, m'⟩ <;> rfl

/-- The target is attempted behind a check that succeeds. -/
lemma attempts_execute_of_some {check : Invocation} (h : p.preCheck = some check) :
    m.attempts children (p.execute bindings) = m.attempt children ⟨check, bindings⟩ ::
      match m.start children ⟨check, bindings⟩ with
      | (.ok status, m') =>
        if status.success then [m'.attempt children ⟨p.target, bindings⟩] else []
      | (.error _, _) => [] := by
  rw [execute_of_some bindings p h, Machine.attempts_bind, Invocation.attempts_delegate,
    Invocation.runAction_delegate]
  refine congrArg (List.cons _) ?_
  rcases m.start children ⟨check, bindings⟩ with ⟨e | status, m'⟩
  · rfl
  · dsimp only
    cases status.success with
    | false => rfl
    | true => exact attempts_executeTarget children m' bindings p

/-- A check that fails is the outcome of the plan. -/
lemma runAction_execute_of_some {check : Invocation} (h : p.preCheck = some check) :
    m.runAction children (p.execute bindings) =
      match m.start children ⟨check, bindings⟩ with
      | (.ok status, m') =>
        if status.success then m'.runAction children (p.executeTarget bindings)
        else (.ok (.failed status.reportedCode), m')
      | (.error e, m') => (.error (.launchFailed check.program e), m') := by
  rw [execute_of_some bindings p h, Machine.runAction_bind, Invocation.runAction_delegate]
  rcases m.start children ⟨check, bindings⟩ with ⟨e | status, m'⟩
  · rfl
  · dsimp only
    cases status.success <;> rfl

/-- The attempts of a plan are the ones that it asks for. -/
theorem followed_execute : p.Followed bindings (m.attempts children (p.execute bindings)) := by
  rw [Followed]
  cases hcheck : p.preCheck with
  | none =>
    rw [execute_of_none bindings p hcheck, attempts_executeTarget]
    exact ⟨_, rfl, rfl⟩
  | some check =>
    rw [attempts_execute_of_some children m bindings p hcheck]
    rcases hstart : m.start children ⟨check, bindings⟩ with ⟨reply, m'⟩
    have hfirst : (m.attempt children ⟨check, bindings⟩).reply = reply := congrArg Prod.fst hstart
    cases reply with
    | error e =>
      refine Or.inl ⟨_, rfl, rfl, fun ⟨status, hok, _⟩ => ?_⟩
      cases hfirst.symm.trans hok
    | ok status =>
      dsimp only
      cases hsuccess : status.success with
      | false =>
        refine Or.inl ⟨_, rfl, rfl, fun ⟨status', hok, hs⟩ => ?_⟩
        rw [← Except.ok.inj (hfirst.symm.trans hok), hsuccess] at hs
        cases hs
      | true => exact Or.inr ⟨_, _, rfl, rfl, ⟨status, hfirst, hsuccess⟩, rfl⟩

/-- The first attempt of a plan meets the machine as it is. -/
theorem exists_attempts_execute : ∃ a rest,
    m.attempts children (p.execute bindings) = a :: rest ∧ a.before = m := by
  cases hcheck : p.preCheck with
  | none =>
    rw [execute_of_none bindings p hcheck, attempts_executeTarget]
    exact ⟨_, _, rfl, rfl⟩
  | some check =>
    exact ⟨_, _, attempts_execute_of_some children m bindings p hcheck, rfl⟩

variable {children m bindings p}

/-- The outcome of a target that ran reports its code. -/
lemma exists_reports_executeTarget (hend : children.End) (front : List Attempt)
    (hfront : ∀ a ∈ front, a.Succeeded)
    (hran : ∃ status, (m.start children ⟨p.target, bindings⟩).1 = .ok status) :
    ∃ outcome, (m.runAction children (p.executeTarget bindings)).1 = .ok outcome ∧
      outcome.Reports (front ++ [m.attempt children ⟨p.target, bindings⟩]) := by
  obtain ⟨status, hstatus⟩ := hran
  obtain ⟨code, hended⟩ := hend.start hstatus
  refine ⟨.ofCode status.reportedCode, ?_, ?_⟩
  · rw [runAction_executeTarget]
    rcases hstart : m.start children ⟨p.target, bindings⟩ with ⟨reply, m'⟩
    rw [hstart] at hstatus
    cases hstatus
    rfl
  · refine Outcome.reports_ofCode List.getLast?_concat hstatus hended ?_
    rwa [List.dropLast_concat]

/-- A plan whose children all ran comes to an outcome that reports the last of them. -/
theorem exists_reports_execute (hend : children.End)
    (hran : ∀ a ∈ m.attempts children (p.execute bindings), ∃ status, a.reply = .ok status) :
    ∃ outcome, (m.runAction children (p.execute bindings)).1 = .ok outcome ∧
      outcome.Reports (m.attempts children (p.execute bindings)) := by
  cases hcheck : p.preCheck with
  | none =>
    rw [execute_of_none bindings p hcheck, attempts_executeTarget] at *
    exact exists_reports_executeTarget hend [] (fun _ h => absurd h List.not_mem_nil)
      (hran _ (List.mem_singleton_self _))
  | some check =>
    rw [attempts_execute_of_some children m bindings p hcheck] at hran ⊢
    rw [runAction_execute_of_some children m bindings p hcheck]
    rcases hstart : m.start children ⟨check, bindings⟩ with ⟨reply, m'⟩
    rw [hstart] at hran
    have hfirst : (m.attempt children ⟨check, bindings⟩).reply = reply := congrArg Prod.fst hstart
    cases reply with
    | error e =>
      obtain ⟨status, hok⟩ := hran _ (List.mem_cons_self ..)
      cases hfirst.symm.trans hok
    | ok status =>
      dsimp only at hran ⊢
      cases hsuccess : status.success with
      | false =>
        obtain ⟨code, hended⟩ := hend.start hfirst
        -- a check that failed has a code of its own, and is the last child
        have hne : status.reportedCode ≠ 0 := by
          rw [hended.reportedCode_eq]
          intro hzero
          have hcode := hended.success_iff.mpr (by omega)
          rw [hsuccess] at hcode
          cases hcode
        have hfailed : Outcome.failed status.reportedCode = .ofCode status.reportedCode :=
          (if_neg hne).symm
        refine ⟨.failed status.reportedCode, rfl, ?_⟩
        rw [hfailed]
        exact Outcome.reports_ofCode rfl hfirst hended fun b hb => absurd hb List.not_mem_nil
      | true =>
        have hsucceeded : (m.attempt children ⟨check, bindings⟩).Succeeded :=
          ⟨status, hfirst, hsuccess⟩
        rw [hsuccess, if_pos rfl] at hran
        refine exists_reports_executeTarget hend [_] (fun a ha => ?_) ?_
        · rwa [List.mem_singleton.mp ha]
        · exact hran _ (List.mem_cons_of_mem _ (List.mem_singleton_self _))

end Plan

end Caretaker
