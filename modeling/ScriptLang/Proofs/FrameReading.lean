import ScriptLang.Proofs.DocumentReading
import ScriptLang.Proofs.LineReading

/-!
# Frames arrive as they are sent

Whatever a frame holds, its line has a line break at its end only, and is read back as the frame, as long
as its numbers take no more bits than they may (`Frame.InRange`).  So a reader takes from lines of text
the frames that were sent, in order, with one error in place of each line that is no frame
(`frames_arrive`).
-/

namespace ScriptLang

namespace Wire

theorem Members.toList_ofList : ∀ ms : List (String × Json), (ofList ms).toList = ms
  | [] => rfl
  | m :: ms => congrArg (List.cons m) (toList_ofList ms)

namespace Json

/-! ### Written documents -/

theorem record_ne_null (ms : List (String × Json)) : record ms ≠ null := by
  intro h
  cases h

/-- A document that is written: it is plain and nests no deeper than some number of levels. -/
structure Written (levels : Nat) (j : Json) : Prop where
  plain : j.plain = true
  readable : ∀ {n}, levels ≤ n → j.readable n = true

theorem Written.mono {levels levels' : Nat} {j : Json} (h : Written levels j)
    (le : levels ≤ levels') : Written levels' j :=
  ⟨h.plain, fun deep => h.readable (Nat.le_trans le deep)⟩

theorem written_null (levels : Nat) : Written levels .null := ⟨rfl, fun _ => rfl⟩

theorem written_string (levels : Nat) (s : String) : Written levels (.string s) :=
  ⟨rfl, fun _ => rfl⟩

theorem written_int (levels : Nat) {n : Int} (h : n.natAbs < 2 ^ 64) : Written levels (.int n) :=
  ⟨decide_eq_true h, fun _ => rfl⟩

theorem written_nat (levels : Nat) {n : Nat} (h : n < 2 ^ 64) : Written levels (nat n) :=
  written_int levels h

theorem membersPlain_ofList (ms : List (String × Json)) :
    membersPlain (.ofList ms) = ms.all fun m => m.2.plain := by
  induction ms with
  | nil => rfl
  | cons m ms ih => rw [List.all_cons, ← ih, Members.ofList, membersPlain]

theorem membersReadable_ofList (levels : Nat) (ms : List (String × Json)) :
    membersReadable levels (.ofList ms) = ms.all fun m => m.2.readable levels := by
  induction ms with
  | nil => rfl
  | cons m ms ih => rw [List.all_cons, ← ih, Members.ofList, membersReadable]

theorem allPlain_eq (js : List Json) : allPlain js = js.all plain := by
  induction js with
  | nil => rfl
  | cons j js ih => rw [List.all_cons, ← ih, allPlain]

theorem allReadable_eq (levels : Nat) (js : List Json) :
    allReadable levels js = js.all (readable levels) := by
  induction js with
  | nil => rfl
  | cons j js ih => rw [List.all_cons, ← ih, allReadable]

theorem written_record {levels : Nat} {ms : List (String × Json)}
    (h : ∀ m ∈ ms, Written levels m.2) : Written (levels + 1) (record ms) := by
  refine ⟨?_, fun {n} deep => ?_⟩
  · rw [record, plain, membersPlain_ofList, List.all_eq_true]
    exact fun m hm => (h m hm).plain
  · rw [record, readable, membersReadable_ofList, Bool.and_eq_true, List.all_eq_true]
    exact ⟨decide_eq_true (by omega), fun m hm => (h m hm).readable (by omega)⟩

theorem written_array {levels : Nat} {js : List Json} (h : ∀ j ∈ js, Written levels j) :
    Written (levels + 1) (array js) := by
  refine ⟨?_, fun {n} deep => ?_⟩
  · rw [plain, allPlain_eq, List.all_eq_true]
    exact fun j hj => (h j hj).plain
  · rw [readable, allReadable_eq, Bool.and_eq_true, List.all_eq_true]
    exact ⟨decide_eq_true (by omega), fun j hj => (h j hj).readable (by omega)⟩

/-! ### Values in documents -/

/-- A written document that some reading takes for a value. -/
structure Gives {α : Type} (read : Json → Option α) (levels : Nat) (j : Json) (a : α) : Prop
    extends Written levels j where
  given : read j = some a

theorem gives_string (s : String) : Gives string? 0 (.string s) s := ⟨written_string 0 s, rfl⟩

theorem gives_nat {bits n : Nat} (few : bits ≤ 64) (h : n < 2 ^ bits) :
    Gives (nat? bits) 0 (nat n) n := by
  have most : 2 ^ bits ≤ 2 ^ 64 := Nat.pow_le_pow_right (by decide) few
  refine ⟨written_nat 0 (Nat.lt_of_lt_of_le h most), ?_⟩
  have bounds : 0 ≤ (n : Int) ∧ (n : Int) < (Nat.pow 2 bits : Nat) :=
    ⟨Int.natCast_nonneg n, Int.ofNat_lt.2 h⟩
  unfold nat? nat int?
  exact if_pos bounds

theorem gives_size {n : Nat} (h : n < 2 ^ 64) : Gives size? 0 (nat n) n :=
  gives_nat (Nat.le_refl 64) h

variable {α : Type} {read : Json → Option α} {levels : Nat} {j : Json} {a : α}

/-- A list of values. -/
theorem gives_list {write : α → Json} {as : List α}
    (h : ∀ a ∈ as, Gives read levels (write a) a) :
    Gives (list? read) (levels + 1) (array (as.map write)) as := by
  refine ⟨written_array (List.forall_mem_map.2 fun a ha => (h a ha).toWritten), ?_⟩
  show (as.map write).mapM read = some as
  induction as with
  | nil => rfl
  | cons a as ih =>
    obtain ⟨first, later⟩ := List.forall_mem_cons.1 h
    simp [List.mapM_cons, first.given, ih later]

/-! ### Fields -/

/-- The members of a record are the fields that are asked for. -/
theorem fields?_record {names : List String} {ms : List (String × Json)}
    (asked : ∀ m ∈ ms, m.1 ∈ names) (once : (ms.map Prod.fst).Nodup) :
    fields? names (record ms) = some ⟨false, ms⟩ := by
  have all : ((Members.ofList ms).toList.filter fun m => names.contains m.1) = ms := by
    rw [Members.toList_ofList]
    exact List.filter_eq_self.2 fun m hm => List.contains_iff_mem.2 (asked m hm)
  unfold fields? record
  simp only [all, if_pos once]

theorem bind_of_some {α β : Type} {x : Option α} {a : α} {f : α → Option β} {r : Option β}
    (h : x = some a) (hf : f a = r) : x >>= f = r := by
  subst h
  exact hf

variable {f : Fields} {name : String}

theorem Gives.required (h : Gives read levels j a) (found : f.values.lookup name = some j) :
    f.required name read = some a := by
  rw [Fields.required, found]
  exact h.given

theorem Gives.defaulted (h : Gives read levels j a) (value : α)
    (found : f.values.lookup name = some j) : f.defaulted name value read = some a := by
  rw [Fields.defaulted, found]
  exact h.given

/-- A value that may be missing, where no value is written as nothing. -/
theorem optional_of_gives {write : α → Json} {o : Option α}
    (h : ∀ a ∈ o, Gives read levels (write a) a) (something : ∀ a, write a ≠ null)
    (found : f.values.lookup name = some ((o.map write).getD .null)) :
    f.optional name read = some o := by
  rw [Fields.optional, found]
  cases o with
  | none => rfl
  | some a =>
    have given := (h a rfl).given
    show nullable? read (write a) = some (some a)
    unfold nullable?
    split
    · next heq => exact absurd heq (something a)
    · rw [given]
      rfl

/-- A record that names its kind in front of its fields. -/
theorem kinded?_record {kind : String} {ms : List (String × Json)}
    (others : ∀ m ∈ ms, m.1 ≠ "kind") (written : ∀ m ∈ ms, Written kindedLevels m.2) :
    kinded? (record (("kind", .string kind) :: ms)) = some (kind, record ms) := by
  have readable : membersReadable kindedLevels (.ofList (("kind", .string kind) :: ms)) = true := by
    rw [membersReadable_ofList, List.all_cons, Bool.and_eq_true, List.all_eq_true]
    exact ⟨rfl, fun m hm => (written m hm).readable (Nat.le_refl _)⟩
  have parts : (("kind", Json.string kind) :: ms).partition (fun m => m.1 == "kind") =
      ([("kind", .string kind)], ms) := by
    have none : ms.filter (fun m => m.1 == "kind") = [] :=
      List.filter_eq_nil_iff.2 fun m hm => by simpa using others m hm
    have all : ms.filter (not ∘ fun m => m.1 == "kind") = ms :=
      List.filter_eq_self.2 fun m hm => by simpa using others m hm
    rw [List.partition_eq_filter_filter, List.filter_cons_of_pos rfl,
      List.filter_cons_of_neg (by simp), none, all]
  unfold kinded? record
  simp only [readable, if_true, Members.toList_ofList, parts]

/-- A value that is written as a record with its kind in front of some fields. -/
theorem gives_kinded {kind : String} {ms : List (String × Json)} {names : List String}
    {read : String × Json → Option α} (known : ∀ m ∈ ms, m.1 ∈ names ∧ Written 3 m.2)
    (other : "kind" ∉ names) (given : read (kind, record ms) = some a) :
    Gives (fun j => kinded? j >>= read) 4 (record (("kind", .string kind) :: ms)) a := by
  refine ⟨written_record ?_, ?_⟩
  · exact List.forall_mem_cons.2 ⟨written_string 3 kind, fun m hm => (known m hm).2⟩
  · refine bind_of_some (kinded?_record (fun m hm same => ?_) fun m hm => ?_) given
    · exact other (same ▸ (known m hm).1)
    · exact (known m hm).2.mono (by decide)

end Json

end Wire

open Wire (Json)
open Wire.Json (Gives gives_kinded gives_string gives_nat gives_size gives_list written_record
  written_null written_string written_int written_nat fields?_record bind_of_some optional_of_gives
  record_ne_null)

/-! ### Places and diagnostics -/

/-- The numbers of a place take at most 64 bits. -/
def Location.InRange (l : Location) : Prop :=
  l.index < 2 ^ 64 ∧ l.line < 2 ^ 64 ∧ l.column < 2 ^ 64

theorem Location.gives {l : Location} (h : l.InRange) : Gives ofJson? 1 l.toJson l := by
  have file := gives_string l.file
  have index := gives_size h.1
  have line := gives_size h.2.1
  have column := gives_size h.2.2
  refine ⟨written_record ?_, ?_⟩
  · simp [file.toWritten, index.toWritten, line.toWritten, column.toWritten]
  · refine bind_of_some (fields?_record (by simp) (by simp)) ?_
    refine bind_of_some (file.required rfl) ?_
    refine bind_of_some (index.required rfl) ?_
    refine bind_of_some (line.required rfl) ?_
    exact bind_of_some (column.required rfl) rfl

namespace Diagnostic

def InRange (d : Diagnostic) : Prop := ∀ l ∈ d.location, l.InRange

theorem gives {d : Diagnostic} (h : d.InRange) : Gives ofJson? 2 d.toJson d := by
  obtain ⟨code, message, location, help⟩ := d
  have place : ((location.map Location.toJson).getD .null).Written 1 := by
    cases location with
    | none => exact written_null 1
    | some l => exact (Location.gives (h l rfl)).toWritten
  have located : ∀ l ∈ location, Gives Location.ofJson? 1 l.toJson l := fun l hl =>
    Location.gives (h l hl)
  refine ⟨written_record ?_, ?_⟩
  · cases help <;> simp [place, written_string]
  · refine bind_of_some (fields?_record ?_ ?_) ?_
    · cases help <;> simp
    · cases help <;> simp
    refine bind_of_some ((gives_string code).required rfl) ?_
    refine bind_of_some ((gives_string message).required rfl) ?_
    refine bind_of_some (optional_of_gives located (fun _ => record_ne_null _) rfl) ?_
    cases help <;> rfl

/-- Diagnostics in a field that is left out if there are none. -/
theorem defaulted_listField {ds : List Diagnostic} (h : ∀ d ∈ ds, d.InRange) {f : Json.Fields}
    (found : f.values.lookup "diagnostics" = (listField ds).lookup "diagnostics") :
    f.defaulted "diagnostics" [] (Json.list? ofJson?) = some ds := by
  cases ds with
  | nil =>
    rw [Json.Fields.defaulted, found]
    rfl
  | cons d ds => exact (gives_list fun d hd => gives (h d hd)).defaulted [] found

/-- A record of one field and of diagnostics. -/
theorem listField_known {ds : List Diagnostic} (h : ∀ d ∈ ds, d.InRange) {name : String}
    (other : name ≠ "diagnostics") {j : Json} (written : j.Written 3) :
    (∀ m ∈ (name, j) :: listField ds, m.1 ∈ [name, "diagnostics"] ∧ m.2.Written 3) ∧
      (((name, j) :: listField ds).map Prod.fst).Nodup := by
  cases ds with
  | nil => simp [listField, written]
  | cons d ds =>
    have listed := (gives_list fun d hd => gives (h d hd)).toWritten
    simpa [listField, written, other] using listed

end Diagnostic

/-! ### Names -/

theorem Stage.gives (s : Stage) : Gives ofJson? 0 s.toJson s :=
  ⟨written_string 0 _, by cases s <;> rfl⟩

namespace Machine

theorem SuspendReason.gives (r : SuspendReason) : Gives ofJson? 0 r.toJson r :=
  ⟨written_string 0 _, by cases r <;> rfl⟩

theorem MessageKind.gives (k : MessageKind) : Gives ofJson? 0 k.toJson k :=
  ⟨written_string 0 _, by cases k <;> rfl⟩

/-! ### Messages -/

namespace ExitStatus

def InRange : ExitStatus → Prop
  | error d => d.InRange
  | _ => True

theorem number?_toInt (n : Int64) : number? (.int n.toInt) = some n := by
  have bounds := And.intro n.minValue_le_toInt n.toInt_le
  unfold number? Json.int?
  rw [Option.bind_some, if_pos bounds, Int64.ofInt_toInt]

theorem gives {s : ExitStatus} (h : s.InRange) : Gives ofJson? 3 s.toJson s := by
  cases s with
  | stopped => exact ⟨written_string 3 _, rfl⟩
  | code n =>
    have most := n.toInt_lt
    have least := n.le_toInt
    refine ⟨written_record ?_, ?_⟩
    · simpa using written_int 2 (n := n.toInt) (by omega)
    · exact bind_of_some rfl (bind_of_some (number?_toInt n) rfl)
  | error d =>
    have diagnostic := Diagnostic.gives h
    refine ⟨written_record ?_, ?_⟩
    · simpa using diagnostic.toWritten
    · exact bind_of_some rfl (bind_of_some diagnostic.given rfl)

end ExitStatus

namespace Payload

def InRange : Payload → Prop
  | stage _ ds => ∀ d ∈ ds, d.InRange
  | program _ _ => True
  | function _ depth => depth < 2 ^ 64
  | instruction _ index _ location depth =>
    index < 2 ^ 64 ∧ location.InRange ∧ depth < 2 ^ 64
  | exit status => status.InRange

theorem gives {p : Payload} (h : p.InRange) : Gives ofJson? 4 p.toJson p := by
  cases p with
  | stage s ds =>
    obtain ⟨known, once⟩ :=
      Diagnostic.listField_known h (by decide : "stage" ≠ _) (written_string 3 s.wireName)
    refine gives_kinded known (by simp) ?_
    refine bind_of_some (fields?_record (fun m hm => (known m hm).1) once) ?_
    refine bind_of_some (s.gives.required rfl) ?_
    exact bind_of_some (Diagnostic.defaulted_listField h rfl) rfl
  | program name entry =>
    have known : ∀ m ∈ (parts (.program name entry)).2,
        m.1 ∈ ["name", "entry"] ∧ m.2.Written 3 := by
      simp [parts, written_string]
    refine gives_kinded known (by simp) ?_
    refine bind_of_some (fields?_record (fun m hm => (known m hm).1) (by simp [parts])) ?_
    refine bind_of_some ((gives_string name).required rfl) ?_
    exact bind_of_some ((gives_string entry).required rfl) rfl
  | function name depth =>
    have known : ∀ m ∈ (parts (.function name depth)).2,
        m.1 ∈ ["name", "depth"] ∧ m.2.Written 3 := by
      simp [parts, written_string, written_nat 3 h]
    refine gives_kinded known (by simp) ?_
    refine bind_of_some (fields?_record (fun m hm => (known m hm).1) (by simp [parts])) ?_
    refine bind_of_some ((gives_string name).required rfl) ?_
    exact bind_of_some ((gives_size h).required rfl) rfl
  | instruction f index op location depth =>
    obtain ⟨hindex, hlocation, hdepth⟩ := h
    have place := Location.gives hlocation
    have known : ∀ m ∈ (parts (.instruction f index op location depth)).2,
        m.1 ∈ ["function", "index", "instruction", "location", "depth"] ∧ m.2.Written 3 := by
      simp [parts, written_string, written_nat 3 hindex, written_nat 3 hdepth,
        place.toWritten.mono (show 1 ≤ 3 by decide)]
    refine gives_kinded known (by simp) ?_
    refine bind_of_some (fields?_record (fun m hm => (known m hm).1) (by simp [parts])) ?_
    refine bind_of_some ((gives_string f).required rfl) ?_
    refine bind_of_some ((gives_size hindex).required rfl) ?_
    refine bind_of_some ((gives_string op).required rfl) ?_
    refine bind_of_some (place.required rfl) ?_
    exact bind_of_some ((gives_size hdepth).required rfl) rfl
  | exit status =>
    have status' := ExitStatus.gives h
    have known : ∀ m ∈ (parts (.exit status)).2, m.1 ∈ ["status"] ∧ m.2.Written 3 := by
      simp [parts, status'.toWritten]
    refine gives_kinded known (by simp) ?_
    refine bind_of_some (fields?_record (fun m hm => (known m hm).1) (by simp [parts])) ?_
    exact bind_of_some (status'.required rfl) rfl

end Payload

def Message.InRange (m : Message) : Prop := m.payload.InRange

theorem Message.gives {m : Message} (h : m.InRange) : Gives ofJson? 5 m.toJson m := by
  have kind := m.kind.gives
  have payload := Payload.gives h
  refine ⟨written_record ?_, ?_⟩
  · simp [payload.toWritten, kind.toWritten.mono (Nat.zero_le 4)]
  · refine bind_of_some (fields?_record (by simp) (by simp)) ?_
    refine bind_of_some (kind.required rfl) ?_
    exact bind_of_some (payload.required rfl) rfl

end Machine

/-! ### Requests and responses -/

namespace Wire

theorem Command.gives (c : Command) : Gives ofJson? 2 c.toJson c := by
  have arguments := gives_list fun s (_ : s ∈ c.arguments) => gives_string s
  refine ⟨written_record ?_, ?_⟩
  · simp [written_string, arguments.toWritten]
  · refine bind_of_some (fields?_record (by simp) (by simp)) ?_
    refine bind_of_some ((gives_string c.command).required rfl) ?_
    refine bind_of_some (arguments.defaulted [] rfl) ?_
    exact bind_of_some ((gives_string c.payload).defaulted "" rfl) rfl

namespace Reply

def InRange : Reply → Prop
  | hello version => version < 2 ^ 32
  | compiled _ => True
  | suspended _ p => p.index < 2 ^ 64 ∧ p.location.InRange ∧ p.depth < 2 ^ 64
  | exited status => status.InRange
  | breakpoint line => line < 2 ^ 64
  | ok => True
  | goodbye => True

theorem gives {r : Reply} (h : r.InRange) : Gives ofJson? 4 r.toJson r := by
  cases r with
  | hello version =>
    have version' := gives_nat (by decide) h
    have known : ∀ m ∈ (parts (.hello version)).2, m.1 ∈ ["version"] ∧ m.2.Written 3 := by
      simp [parts, version'.toWritten.mono (Nat.zero_le 3)]
    refine gives_kinded known (by simp) ?_
    refine bind_of_some (fields?_record (fun m hm => (known m hm).1) (by simp [parts])) ?_
    exact bind_of_some (version'.required rfl) rfl
  | compiled stage =>
    have known : ∀ m ∈ (parts (.compiled stage)).2, m.1 ∈ ["stage"] ∧ m.2.Written 3 := by
      simp [parts, stage.gives.toWritten.mono (Nat.zero_le 3)]
    refine gives_kinded known (by simp) ?_
    refine bind_of_some (fields?_record (fun m hm => (known m hm).1) (by simp [parts])) ?_
    exact bind_of_some (stage.gives.required rfl) rfl
  | suspended reason p =>
    obtain ⟨hindex, hlocation, hdepth⟩ := h
    have place := Location.gives hlocation
    have known : ∀ m ∈ (parts (.suspended reason p)).2,
        m.1 ∈ ["reason", "function", "index", "location", "depth"] ∧ m.2.Written 3 := by
      simp [parts, written_string, written_nat 3 hindex, written_nat 3 hdepth,
        place.toWritten.mono (show 1 ≤ 3 by decide), reason.gives.toWritten.mono (Nat.zero_le 3)]
    refine gives_kinded known (by simp) ?_
    refine bind_of_some (fields?_record (fun m hm => (known m hm).1) (by simp [parts])) ?_
    refine bind_of_some (reason.gives.required rfl) ?_
    refine bind_of_some ((gives_string p.function).required rfl) ?_
    refine bind_of_some ((gives_size hindex).required rfl) ?_
    refine bind_of_some (place.required rfl) ?_
    exact bind_of_some ((gives_size hdepth).required rfl) rfl
  | exited status =>
    have status' := Machine.ExitStatus.gives h
    have known : ∀ m ∈ (parts (.exited status)).2, m.1 ∈ ["status"] ∧ m.2.Written 3 := by
      simp [parts, status'.toWritten]
    refine gives_kinded known (by simp) ?_
    refine bind_of_some (fields?_record (fun m hm => (known m hm).1) (by simp [parts])) ?_
    exact bind_of_some (status'.required rfl) rfl
  | breakpoint line =>
    have known : ∀ m ∈ (parts (.breakpoint line)).2, m.1 ∈ ["line"] ∧ m.2.Written 3 := by
      simp [parts, written_nat 3 h]
    refine gives_kinded known (by simp) ?_
    refine bind_of_some (fields?_record (fun m hm => (known m hm).1) (by simp [parts])) ?_
    exact bind_of_some ((gives_size h).required rfl) rfl
  | ok => exact ⟨written_record (by simp [parts, written_string]), rfl⟩
  | goodbye => exact ⟨written_record (by simp [parts, written_string]), rfl⟩

end Reply

namespace Failure

def InRange (f : Failure) : Prop := ∀ d ∈ f.diagnostics, d.InRange

theorem gives {f : Failure} (h : f.InRange) : Gives ofJson? 4 f.toJson f := by
  obtain ⟨known, once⟩ :=
    Diagnostic.listField_known h (by decide : "message" ≠ _) (written_string 3 f.message)
  refine ⟨written_record fun m hm => (known m hm).2, ?_⟩
  refine bind_of_some (fields?_record (fun m hm => (known m hm).1) once) ?_
  refine bind_of_some ((gives_string f.message).required rfl) ?_
  exact bind_of_some (Diagnostic.defaulted_listField h rfl) rfl

end Failure

namespace Response

def InRange : Response → Prop
  | result r => r.InRange
  | error f => f.InRange

theorem gives {r : Response} (h : r.InRange) : Gives ofJson? 5 r.toJson r := by
  cases r with
  | result r =>
    have reply := Reply.gives h
    refine ⟨written_record (by simpa using reply.toWritten), ?_⟩
    exact bind_of_some rfl (bind_of_some reply.given rfl)
  | error f =>
    have failure := Failure.gives h
    refine ⟨written_record (by simpa using failure.toWritten), ?_⟩
    exact bind_of_some rfl (bind_of_some failure.given rfl)

end Response

/-! ### Frames -/

namespace Frame

/-- The numbers of a frame take at most 64 bits, and the version of the protocol at most 32. -/
def InRange : Frame → Prop
  | command _ => True
  | response r => r.InRange
  | event m => m.InRange
  | output _ => True
  | warning d => d.InRange

theorem gives {f : Frame} (h : f.InRange) : Gives ofJson? 6 f.toJson f := by
  cases f with
  | command c =>
    have command := c.gives
    refine ⟨written_record (by simpa using command.toWritten.mono (by decide)), ?_⟩
    exact bind_of_some rfl (bind_of_some command.given rfl)
  | response r =>
    have response := Response.gives h
    refine ⟨written_record (by simpa using response.toWritten), ?_⟩
    exact bind_of_some rfl (bind_of_some response.given rfl)
  | event m =>
    have message := Machine.Message.gives h
    refine ⟨written_record (by simpa using message.toWritten), ?_⟩
    exact bind_of_some rfl (bind_of_some message.given rfl)
  | output text =>
    exact ⟨written_record (by simp [written_string]), rfl⟩
  | warning d =>
    have diagnostic := Diagnostic.gives h
    refine ⟨written_record (by simpa using diagnostic.toWritten.mono (by decide)), ?_⟩
    exact bind_of_some rfl (bind_of_some diagnostic.given rfl)

/-! ### Lines of frames -/

/-- What a frame is written as begins and ends with a brace. -/
theorem text_braces (f : Frame) : ∃ cs, f.toJson.text.toList = '\x7b' :: cs ++ ['\x7d'] := by
  have braces (ms : List (String × Json)) :
      ∃ cs, (Json.record ms).text.toList = '\x7b' :: cs ++ ['\x7d'] := by
    rw [Json.text, String.toList_ofList]
    exact ⟨_, rfl⟩
  cases f <;> exact braces _

theorem trimLineBreaks_text (f : Frame) : trimLineBreaks f.toJson.text = f.toJson.text := by
  obtain ⟨cs, braces⟩ := f.text_braces
  have kept : (f.toJson.text.toList.reverse.dropWhile fun c => c == '\n' || c == '\r') =
      f.toJson.text.toList.reverse := by
    rw [braces, List.reverse_append]
    rfl
  rw [trimLineBreaks, kept, List.reverse_reverse, String.ofList_toList]

theorem isBlankLine_text (f : Frame) : isBlankLine f.toJson.text = false := by
  obtain ⟨cs, braces⟩ := f.text_braces
  rw [isBlankLine, braces]
  rfl

theorem decode_text {f : Frame} (h : f.InRange) : decode f.toJson.text = .ok f := by
  have given := gives h
  rw [decode, trimLineBreaks_text, Json.ofString?_text given.plain, Option.bind_some, given.given]

end Frame

/-! ### What arrives -/

/-- What may be sent on a line. -/
inductive Sent where
  | frame (f : Frame)
  | blank (line : String)
  /-- A text that is no frame. -/
  | other (line : String)
  /-- Bytes that are no text. -/
  | garbled (bytes : Bytes)

namespace Sent

def bytes : Sent → Bytes
  | frame f => textBytes (encode f)
  | blank line => textBytes (line ++ "\n")
  | other line => textBytes (line ++ "\n")
  | garbled bytes => bytes ++ [lineBreak]

/-- What a reader takes it for. -/
def arrival? : Sent → Option Arrival
  | frame f => some (.ok f)
  | blank _ => none
  | other _ => some (.error (.malformed notAFrame))
  | garbled _ => some (.error (.transport "stream did not contain valid UTF-8"))

/-- It is on one line, and is what it is said to be. -/
def Valid : Sent → Prop
  | frame f => f.InRange
  | blank line => '\n' ∉ line.toList ∧ isBlankLine line = true
  | other line => '\n' ∉ line.toList ∧ isBlankLine line = false ∧ ∀ f, decode line ≠ .ok f
  | garbled bytes => lineBreak ∉ bytes ∧ textOf? (bytes ++ [lineBreak]) = none

theorem readFrames_bytes {s : Sent} (h : s.Valid) (rest : Bytes) :
    readFrames (s.bytes ++ rest) = s.arrival?.toList ++ readFrames rest := by
  cases s with
  | frame f =>
    have line := readFrames_line (Json.lineBreak_not_mem_text (Frame.gives h).plain) rest
    rw [f.isBlankLine_text, Frame.decode_text h] at line
    exact line
  | blank line =>
    have read := readFrames_line h.1 rest
    rw [h.2] at read
    exact read
  | other line =>
    have read := readFrames_line h.1 rest
    obtain ⟨f, frame⟩ | wrong := decode_cases line
    · exact absurd frame (h.2.2 f)
    · rw [h.2.1, wrong] at read
      exact read
  | garbled bytes =>
    have some_bytes : bytes ++ lineBreak :: rest ≠ [] := by simp
    have read : readFrame (bytes ++ lineBreak :: rest) =
        (.error (.transport "stream did not contain valid UTF-8"), rest) := by
      rw [readFrame, readLine, dif_neg some_bytes, splitLine_of_not_mem h.1]
      simp only [h.2]
    rw [Sent.bytes, List.append_assoc, List.singleton_append, readFrames_eq, read]
    rfl

end Sent

/-- Every frame is written as one line, from which it is read back.  From lines that hold frames,
nothing, or something else, a reader takes the frames in order, with one error in place of every line
that is no frame, and comes to the end. -/
theorem frames_arrive :
    (∀ f : Frame, f.InRange → ∃ line, encode f = line ++ "\n" ∧ '\n' ∉ line.toList ∧
      decode (encode f) = .ok f) ∧
    ∀ sent : List Sent, (∀ s ∈ sent, s.Valid) →
      readFrames (sent.flatMap Sent.bytes) = sent.filterMap Sent.arrival? := by
  refine ⟨fun f h => ⟨f.toJson.text, rfl, Json.lineBreak_not_mem_text (Frame.gives h).plain, ?_⟩,
    fun sent h => ?_⟩
  · rw [encode, decode_lineBreak, Frame.decode_text h]
  · induction sent with
    | nil =>
      rw [List.flatMap_nil, readFrames, dif_pos rfl]
      rfl
    | cons s sent ih =>
      obtain ⟨first, later⟩ := List.forall_mem_cons.1 h
      rw [List.flatMap_cons, Sent.readFrames_bytes first, ih later, List.filterMap_cons]
      cases s.arrival? <;> rfl

/-- A message with a line break and quotes in it. -/
def sentMessage : Frame :=
  .event ⟨.programExit, .exit (.error ⟨"E1", "a \"b\"\nc\t", none, some "é"⟩)⟩

/-- The message between a blank line and lines that are no frames. -/
def sentLines : List Sent :=
  [.blank " \r", .frame sentMessage, .other "\x7b", .garbled [0xff],
    .frame (.response (.result (.hello 1)))]

theorem sentLines_arrive : decode (encode sentMessage) = .ok sentMessage ∧
    readFrames (sentLines.flatMap Sent.bytes) =
      [.ok sentMessage, .error (.malformed notAFrame),
        .error (.transport "stream did not contain valid UTF-8"),
        .ok (.response (.result (.hello 1)))] := by
  have brace : decode "\x7b" = .error (.malformed notAFrame) := by decide
  have inRange : sentMessage.InRange := by
    intro l hl
    cases hl
  have valid : ∀ s ∈ sentLines, s.Valid := by
    unfold sentLines
    simp only [List.forall_mem_cons]
    refine ⟨?_, inRange, ⟨?_, ?_, ?_⟩, ?_, ?_, fun s hs => absurd hs List.not_mem_nil⟩
    · show '\n' ∉ " \r".toList ∧ isBlankLine " \r" = true
      decide
    · decide
    · decide
    · intro f h
      exact absurd (brace.symm.trans h) (by intro same; cases same)
    · show lineBreak ∉ [255] ∧ textOf? ([255] ++ [lineBreak]) = none
      decide
    · show 1 < 2 ^ 32
      decide
  obtain ⟨line, -, -, decoded⟩ := frames_arrive.1 sentMessage inRange
  exact ⟨decoded, frames_arrive.2 sentLines valid⟩

end Wire

end ScriptLang
