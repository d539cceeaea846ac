import ScriptLang.Proofs.BuiltSessions
import ScriptLang.Proofs.TextSessions

/-!
# Halted sessions

Work that fails halts its session: nothing more is done or sent, whatever is asked, and a request that
wants the next stage is refused with the stage that failed (`halted_stays`).  Only `compile` looks at
the stage and not at the failure: once a session has come to the last stage before the program runs,
`compile` has nothing to do and says so, even if that stage has failed.
-/

namespace ScriptLang

namespace Session

variable {s : Session} {stage : Stage}

/-! ### What a halted session answers -/

/-- A request refused because a stage has failed: nothing is done and nothing changes. -/
def refusal (s : Session) (stage : Stage) {α : Type} : Account α := ⟨(.error (.halted stage), s), []⟩

theorem refusal_andThen {α β : Type} (s : Session) (stage : Stage) (next : α → Session → Account β) :
    (s.refusal stage).andThen next = s.refusal stage := rfl

theorem advancing_of_failed (h : s.failed = some stage) : s.advancing = s.refusal stage := by
  unfold advancing
  rw [h]
  rfl

/-- `compile` is refused in a halted session that has not come to the last stage it goes to. -/
theorem compiling_of_failed (h : s.failed = some stage) :
    s.compiling = if s.stage.rank < Stage.generate.rank then s.refusal stage else ⟨(.ok (), s), []⟩ := by
  have hsteps : Stage.generate.rank = 3 + 1 := rfl
  unfold compiling
  rw [hsteps, advancingToLinked]
  by_cases early : s.stage.rank < Stage.generate.rank
  · rw [if_pos early, if_pos (hsteps ▸ early), advancing_of_failed h, refusal_andThen]
  · rw [if_neg early, if_neg (hsteps ▸ early)]

theorem enteringTerminal_of_failed (h : s.failed = some stage) (early : s.stage.isTerminal = false) :
    s.enteringTerminal = s.refusal stage := by
  unfold enteringTerminal
  rw [if_neg (Bool.eq_false_iff.1 early), compiling_of_failed h]
  split
  · exact refusal_andThen s stage _
  · change s.advancing.andThen _ = _
    rw [advancing_of_failed h, refusal_andThen]

/-- Whether a request wants the program taken to another stage, other than `compile`. -/
def Request.goesOn : Request → Bool
  | .advance | .run _ | .debug _ => true
  | .load _ | .compile | .resume _ _ | .addBreakpoint _ => false

theorem account_of_failed (h : s.failed = some stage) (early : s.stage.isTerminal = false)
    {r : Request} (goesOn : r.goesOn = true) : s.account r = s.refusal stage := by
  have advance := advancing_of_failed h
  have enter := enteringTerminal_of_failed h early
  cases r with
  | advance =>
    change s.advancing.andThen _ = _
    rw [advance, refusal_andThen]
  | run stops =>
    change s.enteringTerminal.andThen _ = _
    rw [enter, refusal_andThen]
  | debug stops =>
    change s.enteringTerminal.andThen _ = _
    rw [enter, refusal_andThen]
  | load _ | compile | resume _ _ | addBreakpoint _ => cases goesOn

/-- Of the stages before the program runs, `compile` does not see that the last has failed. -/
theorem account_compile_of_failed (h : s.failed = some stage) (at_stage : s.stage = stage)
    (early : stage.isTerminal = false) :
    s.account .compile = if stage = .generate then ⟨(.ok .done, s), []⟩ else s.refusal stage := by
  unfold account
  rw [compiling_of_failed h, at_stage]
  cases stage with
  | execute | interpret => cases early
  | init | parse | bind | intermediate | generate => rfl

/-! ### Halted sessions stay halted -/

/-- The session has halted in a stage, with this done and sent. -/
structure Halted (c : Config) (stage : Stage) (done : List Deed) (sent : Array Machine.Emission)
    (deeds : List Deed) (s : Session) : Prop where
  order : InOrder c deeds s
  failed : s.failed = some stage
  deeds : deeds = done
  sent : s.sent = sent

theorem addBreakpoint_sent (s : Session) (line : Nat) : (s.addBreakpoint line).sent = s.sent := by
  unfold addBreakpoint
  split <;> rfl

/-- Whatever a halted session is asked, it stays as it is. -/
theorem halted_kept {c : Config} {done : List Deed} {sent : Array Machine.Emission} :
    KeptByRequests (Halted c stage done sent) where
  stages _ _ _ h going _ := by
    rw [h.failed] at going
    cases going
  machine _ _ h := h.order.machine
  load _ s source h early := ⟨inOrder_kept.load source h.order early, h.failed, h.deeds, h.sent⟩
  pause _ s h := ⟨inOrder_kept.pause h.order, h.failed, h.deeds, h.sent⟩
  drive _ s m _ _ _ _ _ h hm _ _ := by
    -- a halted session has no machine, for nothing fails once the program is linked
    obtain ⟨hstage, early⟩ := h.order.failed stage h.failed
    have terminal := h.order.machine (by rw [hm]; rfl)
    rw [hstage, early] at terminal
    cases terminal
  addBreakpoint _ s line h :=
    ⟨inOrder_kept.addBreakpoint line h.order, (s.addBreakpoint_alike line).failed.trans h.failed,
      h.deeds, (s.addBreakpoint_sent line).trans h.sent⟩

/-- Once the work of a stage has failed, nothing is done or sent any more, whatever is asked.  Every
request to go on is refused with the stage that failed, except that `compile` has nothing to do if that
was the last stage it goes to. -/
theorem halted_stays (c : Config) (files : FileSystem) (bridge : Native.Bridge) (fuel : Nat)
    (before later : List Request) {d : Deed}
    (done : d ∈ ((History.ofConfig c files bridge fuel).askAll before).deeds)
    (bad : d.succeeded = false) :
    let halted := (History.ofConfig c files bridge fuel).askAll before
    let s := (halted.askAll later).session
    (halted.askAll later).deeds = halted.deeds ∧ s.sent = halted.session.sent ∧
      (∀ r : Request, r.goesOn = true → s.account r = s.refusal d.stage) ∧
      s.account .compile =
        if d.stage = .generate then ⟨(.ok .done, s), []⟩ else s.refusal d.stage := by
  intro halted s
  have order := askAll_inOrder c files bridge fuel before
  have stays : Halted c d.stage halted.deeds halted.session.sent (halted.askAll later).deeds s :=
    halted_kept.askAll later ⟨order, order.failed_of_deed done bad, rfl, rfl⟩
  obtain ⟨at_stage, early⟩ := stays.order.failed _ stays.failed
  refine ⟨stays.deeds, stays.sent, fun r goesOn => ?_, ?_⟩
  · exact account_of_failed stays.failed (by rw [at_stage]; exact early) goesOn
  · exact account_compile_of_failed stays.failed at_stage early

/-! ### A program without entry point -/

/-- The text of a program that can be compiled but has nothing to begin with. -/
def headlessText : String := "func f() {}"

def headless : History := History.ofConfig {} {} .platform 0

/-- The session when the program has been loaded. -/
def headlessLoaded : Session := (headless.ask (.load (.text "t" headlessText))).session

/-- What comes of linking a program that has been parsed. -/
def headlessLinked (program : Syntax.Program) : Session.Answer Unit :=
  advanceToLinked 3 { headlessLoaded with stage := .parse, parsed := some program }

theorem headlessLoaded_compile : headlessLoaded.compile.2.failed = some .generate := by
  let parsed := Syntax.parseText headlessLoaded.config.parseOptions "t" headlessText
  obtain ⟨errors, remarks, failed⟩ : parsed.errors = [] ∧ parsed.remarks = [] ∧
      (headlessLinked parsed.program).2.failed = some .generate :=
    Syntax.parseText_of_any (P := fun o => o.errors = [] ∧ o.remarks = [] ∧
      (headlessLinked o.program).2.failed = some .generate) rfl 20 (by decide +kernel)
  have clean : headlessLoaded.parseSource (.text "t" headlessText) = ⟨parsed.program, [], []⟩ := by
    rw [← errors, ← remarks]
    rfl
  rw [compile_of_parse rfl rfl rfl rfl rfl clean]
  exact failed

/-- Linking a program without entry point fails.  Asked to compile it again, the session reports
success, and only when it is asked to run it, that it has halted. -/
theorem headless_halted :
    let x := (headless.askAll [.load (.text "t" headlessText), .compile]).askAll [.addBreakpoint 1]
    x.session.answer .compile = (.ok .done, x.session) ∧
      ∀ stops, x.session.answer (.run stops) = (.error (.halted .generate), x.session) := by
  intro x
  have failed : (headless.askAll [.load (.text "t" headlessText), .compile]).session.failed =
      some .generate := by
    change (headlessLoaded.account .compile).answer.2.failed = _
    rw [answer_account]
    exact headlessLoaded_compile
  have order := askAll_inOrder {} {} .platform 0 [.load (.text "t" headlessText), .compile]
  obtain ⟨ds, done⟩ := order.deed_of_failed failed
  obtain ⟨_, _, goesOn, compile⟩ := halted_stays {} {} .platform 0
    [.load (.text "t" headlessText), .compile] [.addBreakpoint 1] done rfl
  refine ⟨?_, fun stops => ?_⟩
  · rw [← answer_account]
    exact congrArg Account.answer compile
  · rw [← answer_account]
    exact congrArg Account.answer (goesOn (.run stops) rfl)

end Session

end ScriptLang
