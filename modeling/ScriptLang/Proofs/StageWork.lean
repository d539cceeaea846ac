import ScriptLang.Session.State

/-!
# The work of the stages

The work of a stage fails and says what went wrong, or it makes what the stage is for from what the
stage before it has made (`work_works`).
-/

namespace ScriptLang

namespace Session

/-! ### What fails says why -/

theorem bind_error_ne_nil {p : Syntax.Program} {es : List Bound.BindError}
    (h : Bound.bind p = .error es) : es ≠ [] := by
  unfold Bound.bind at h
  dsimp only at h
  split at h
  split at h
  · cases h
  · next some_error =>
    cases h
    exact fun nothing => some_error (List.isEmpty_iff.2 nothing)

theorem lower_error_ne_nil {p : Bound.Program} {name entry : String} {es : List Code.LoweringError}
    (h : Code.lower p name entry = .error es) : es ≠ [] := by
  unfold Code.lower at h
  dsimp only at h
  split at h
  · cases h
  · next some_error =>
    cases h
    exact fun nothing => some_error (List.isEmpty_iff.2 nothing)

theorem link_error_ne_nil {code : Code.Program} {b : Native.Bridge} {natives : Bool}
    {es : List Machine.LinkError} (h : Machine.link code b natives = .error es) : es ≠ [] := by
  unfold Machine.link at h
  dsimp only at h
  split at h
  · cases h
    exact List.cons_ne_nil _ _
  · split at h
    · cases h
    · next some_error =>
      cases h
      exact fun nothing => some_error (List.isEmpty_iff.2 nothing)

/-! ### What the work of a stage comes to -/

/-- What the work of a stage comes to, and the session after it.  The log, the files and the bridge may
change beside what the stage makes. -/
inductive Works (s : Session) : Stage → Work → Prop where
  | nothing : Works s .init (.ok (), s)
  | failed {stage : Stage} {ds : List Diagnostic} (told : ds ≠ []) (log : Array LogRecord)
      (bridge : Native.Bridge) : Works s stage (.error ds, { s with log, bridge })
  | parsed (p : Syntax.Program) (log : Array LogRecord) (files : FileSystem) :
      Works s .parse (.ok (), { s with log, files, parsed := some p })
  | bound {p : Syntax.Program} {b : Bound.Program} (hparsed : s.parsed = some p)
      (hbind : Bound.bind p = .ok b) (log : Array LogRecord) (files : FileSystem) :
      Works s .bind (.ok (), { s with log, files, bound := some b })
  | lowered {b : Bound.Program} {name entry : String} {code : Code.Program}
      (hbound : s.bound = some b) (hlower : Code.lower b name entry = .ok code)
      (log : Array LogRecord) : Works s .intermediate (.ok (), { s with log, code := some code })
  | linked {code : Code.Program} {bridge : Native.Bridge} {natives : Bool} {e : Machine.Executable}
      (hcode : s.code = some code) (hlink : Machine.link code bridge natives = .ok e) :
      Works s .generate (.ok (), { s with bridge, executable := some e })
  | executing {e : Machine.Executable} (hexecutable : s.executable = some e) :
      Works s .execute (.ok (), s.install (.linked e))
  | interpreting {code : Code.Program} (hcode : s.code = some code) :
      Works s .interpret (.ok (), s.install (.interpreted code s.bridge))

theorem remarks_eq : ∀ (remarks : List String) (s : Session),
    ∃ log, remarks.foldl (fun s r => s.record .warning "parse" r) s = { s with log }
  | [], s => ⟨s.log, rfl⟩
  | r :: remarks, s => remarks_eq remarks (s.record .warning "parse" r)

variable (s : Session)

theorem writeDiagram_eq (tree : String) (dot : String → String) :
    ∃ log files, s.writeDiagram tree dot = { s with log, files } := by
  unfold writeDiagram
  split
  · exact ⟨s.log, s.files, rfl⟩
  · dsimp only
    split
    · next files _ => exact ⟨_, files, rfl⟩
    · exact ⟨_, s.files, rfl⟩

theorem Works.errors {s : Session} {stage : Stage} {α : Type} {es : List α} (f : α → Diagnostic)
    (some_error : es ≠ []) (log : Array LogRecord) (bridge : Native.Bridge) :
    Works s stage (.error (es.map f), { s with log, bridge }) :=
  .failed (mt List.map_eq_nil_iff.1 some_error) log bridge

theorem parse_works : s.Works .parse s.parse := by
  unfold parse
  split
  · exact .failed (List.cons_ne_nil _ _) s.log s.bridge
  · next source _ =>
    obtain ⟨log, remarked⟩ := remarks_eq (s.parseSource source).remarks s
    dsimp only
    rw [remarked]
    split
    · obtain ⟨log, files, drawn⟩ := writeDiagram_eq { s with log } "syntax"
        (fun name => (s.parseSource source).program.dot name)
      rw [drawn]
      exact .parsed _ log files
    · next some_error =>
      exact .errors _ (fun nothing => some_error (List.isEmpty_iff.2 nothing)) log s.bridge

theorem bind_works : s.Works .bind s.bind := by
  unfold bind
  split
  · exact .failed (List.cons_ne_nil _ _) s.log s.bridge
  · next p hparsed =>
    cases hbind : Bound.bind p with
    | error es => exact .errors _ (bind_error_ne_nil hbind) s.log s.bridge
    | ok b =>
      obtain ⟨log, files, drawn⟩ := s.writeDiagram_eq "bound" (fun name => b.dot name)
      dsimp only
      rw [drawn]
      exact .bound hparsed hbind log files

theorem lower_works : s.Works .intermediate s.lower := by
  unfold lower
  split
  · exact .failed (List.cons_ne_nil _ _) s.log s.bridge
  · next b hbound =>
    cases hlower : Code.lower b s.programName s.config.entryPoint with
    | error es => exact .errors _ (lower_error_ne_nil hlower) s.log s.bridge
    | ok code =>
      dsimp only
      split
      · exact .lowered hbound hlower _
      · exact .lowered hbound hlower s.log

theorem link_works : s.Works .generate s.link := by
  unfold link
  split
  · exact .failed (List.cons_ne_nil _ _) s.log s.bridge
  · next code hcode =>
    dsimp only
    split
    · cases hlink : Machine.link code (loadLibraries s.bridge s.config.libraries).2
          s.config.execute with
      | error es => exact .errors _ (link_error_ne_nil hlink) s.log _
      | ok e => exact .linked hcode hlink
    · next some_error =>
      exact .errors _ (fun nothing => some_error (List.isEmpty_iff.2 nothing)) s.log _

theorem prepareLinked_works : s.Works .execute s.prepareLinked := by
  unfold prepareLinked
  split
  · next e hexecutable => exact .executing hexecutable
  · exact .failed (List.cons_ne_nil _ _) s.log s.bridge

theorem prepareInterpreted_works : s.Works .interpret s.prepareInterpreted := by
  unfold prepareInterpreted
  split
  · next code hcode => exact .interpreting hcode
  · exact .failed (List.cons_ne_nil _ _) s.log s.bridge

/-- The work of every stage is one of these. -/
theorem work_works (stage : Stage) : s.Works stage (s.work stage) := by
  cases stage with
  | init => exact .nothing
  | parse => exact s.parse_works
  | bind => exact s.bind_works
  | intermediate => exact s.lower_works
  | generate => exact s.link_works
  | execute => exact s.prepareLinked_works
  | interpret => exact s.prepareInterpreted_works

end Session

end ScriptLang
