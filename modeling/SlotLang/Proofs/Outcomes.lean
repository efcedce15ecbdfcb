import SlotLang.Outcome
import SlotLang.Proofs.Assembly.Emission
import SlotLang.Proofs.Builder.Drafts

/-!
# What an outcome can be

Each stage behind the parser has its own way to fail, but only the parser fails with a report, and
that report is never empty. So an outcome tells at which stage it was decided, and its report is the
same for all backends and assemblers.
-/

open List

namespace SlotLang

variable {b : Backend} {a : Assembly.Assembler} {source : Source} {p : Program} {report : Report}

/-- The three ways in which a source can end. -/
inductive Verdict where
  | made
  | rejected
  | failed

/-- An outcome ends one way, and has nothing that belongs to the other ways. -/
def Outcome.Ends (o : Outcome) : Verdict → Prop
  | .made => o.success = true ∧ o.artifact.isSome = true ∧ o.report = {} ∧ o.error = none
  | .rejected => o.success = false ∧ o.artifact = none ∧ o.report.kept ≠ [] ∧ o.error = none
  | .failed => o.success = false ∧ o.artifact = none ∧ o.report = {} ∧ o.error.isSome = true

theorem Outcome.Ends.unique {o : Outcome} {v w : Verdict} (first : o.Ends v) (second : o.Ends w) :
    v = w := by
  cases v <;> cases w <;> simp_all [Outcome.Ends]

theorem produce_of_rejected (rejected : Program.parse source 0 = .error report) :
    b.produce a source = .error (.rejected report) := by
  rw [Backend.produce, Source.program, rejected]
  rfl

/-- The stages behind the parser do not reject. -/
theorem message_of_produce (parsed : Program.parse source 0 = .ok p) {e : OutcomeError}
    (failed : b.produce a source = .error e) : e.report = {} ∧ e.message?.isSome = true := by
  rw [Backend.produce, Source.program, parsed] at failed
  cases b with
  | interpret =>
    cases fault : (Environment.run {} {} p).fault? with
    | none => simp [bind, Except.bind, Except.mapError, fault, pure, Except.pure] at failed
    | some f =>
      simp only [bind, Except.bind, Except.mapError, fault] at failed
      cases failed
      exact ⟨rfl, rfl⟩
  | wasm =>
    cases built : Assembly.Image.ofProgram a p with
    | ok i => simp [bind, Except.bind, Except.mapError, built, pure, Except.pure] at failed
    | error e' =>
      simp only [bind, Except.bind, Except.mapError, built] at failed
      cases failed
      exact ⟨rfl, rfl⟩
  | python => cases failed

theorem check_of_parse (parsed : Program.parse source 0 = .ok p) : source.check = {} := by
  rw [Source.check, Source.program, parsed]
  rfl

theorem check_of_rejected (rejected : Program.parse source 0 = .error report) :
    source.check = report := by
  rw [Source.check, Source.program, rejected]
  rfl

theorem ends_ofSource (b : Backend) (a : Assembly.Assembler) (source : Source) :
    (∃ v, (Outcome.ofSource b a source).Ends v) ∧
      (Outcome.ofSource b a source).report = source.check := by
  unfold Outcome.ofSource
  cases parsed : Program.parse source 0 with
  | error report =>
    rw [produce_of_rejected parsed, check_of_rejected parsed]
    exact ⟨⟨.rejected, rfl, rfl, Program.kept_of_parse parsed, rfl⟩, rfl⟩
  | ok p =>
    rw [check_of_parse parsed]
    cases made : b.produce a source with
    | ok artifact => exact ⟨⟨.made, rfl, rfl, rfl, rfl⟩, rfl⟩
    | error e =>
      obtain ⟨report, message⟩ := message_of_produce parsed made
      exact ⟨⟨.failed, rfl, rfl, report, message⟩, report⟩

namespace Assembly

variable {i : Image}

theorem check_eq_ok {decode : List UInt8 → Option Module} :
    i.check decode = .ok () ↔ ∃ m, i.toModule decode = .ok m := by
  unfold Image.check
  cases i.toModule decode <;> simp

theorem ofProgram_eq_ok : Image.ofProgram a p = .ok i ↔
    ∃ m, Module.ofProgram p = .ok m ∧ a.assemble m = .ok i ∧
      ∃ code, i.toModule a.decode = .ok code := by
  constructor
  · intro built
    obtain ⟨m, emitted, rest⟩ := bind_eq_ok.1 built
    obtain ⟨j, assembled, rest⟩ := bind_eq_ok.1 rest
    obtain ⟨u, checked, same⟩ := bind_eq_ok.1 rest
    cases same
    exact ⟨m, mapError_eq_ok.1 emitted, assembled, check_eq_ok.1 checked⟩
  · rintro ⟨m, emitted, assembled, valid⟩
    exact bind_eq_ok.2 ⟨m, mapError_eq_ok.2 emitted, bind_eq_ok.2 ⟨i, assembled,
      bind_eq_ok.2 ⟨(), check_eq_ok.2 valid, rfl⟩⟩⟩

theorem magic_of_toModule {code : Module} (valid : i.toModule a.decode = .ok code) :
    Image.magic <+: i.start := by
  cases i with
  | ofModule m => exact prefix_append _ _
  | ofBytes bytes =>
    cases starts : Image.magic.isPrefixOf bytes with
    | false => simp [Image.toModule, starts] at valid
    | true => exact prefix_take_iff.2 ⟨ isPrefixOf_iff_prefix.1 starts, by decide⟩

end Assembly

theorem artifact_wasm {artifact : Artifact} :
    (Outcome.ofSource .wasm a source).artifact = some artifact ↔
      ∃ p i, Program.parse source 0 = .ok p ∧ Assembly.Image.ofProgram a p = .ok i ∧
        artifact = .image i := by
  unfold Outcome.ofSource
  cases parsed : Program.parse source 0 with
  | error report => simp [produce_of_rejected parsed]
  | ok p =>
    rw [Backend.produce, Source.program, parsed]
    cases built : Assembly.Image.ofProgram a p <;>
      simp [bind, Except.bind, Except.mapError, built, pure, Except.pure, eq_comm]

/-- **Outcomes are unambiguous.** Whatever the source, the backend, the assembler and the decoder of its
bytes, an outcome is exactly one of three: an artifact alone, a report with a diagnostic alone, or a
message alone. Its report is that of the check of the source, so it does not depend on the backend.
The assembling backend makes an artifact exactly if the source can be parsed, all calls fit, and the
assembler delivers an image that starts with the magic number and is valid. -/
theorem outcome_unambiguous (b : Backend) (a : Assembly.Assembler) (source : Source) :
    (∃! v, (Outcome.ofSource b a source).Ends v) ∧
    (Outcome.ofSource b a source).report = source.check ∧
    ∀ artifact, (Outcome.ofSource .wasm a source).artifact = some artifact ↔
      ∃ p m i code, Program.parse source 0 = .ok p ∧ (∀ c ∈ p.allCode, c.CallFits p) ∧
        Assembly.Module.ofProgram p = .ok m ∧ a.assemble m = .ok i ∧
        Assembly.Image.magic <+: i.start ∧ i.toModule a.decode = .ok code ∧ artifact = .image i := by
  obtain ⟨⟨v, ends⟩, report⟩ := ends_ofSource b a source
  refine ⟨⟨v, ends, fun w other => other.unique ends⟩, report, fun artifact => ?_⟩
  rw [artifact_wasm]
  constructor
  · rintro ⟨p, i, parsed, built, rfl⟩
    obtain ⟨m, made, assembled, code, valid⟩ := Assembly.ofProgram_eq_ok.1 built
    exact ⟨p, m, i, code, parsed, Assembly.callFits_of_ofProgram (sound_of_parse parsed) made, made,
      assembled, Assembly.magic_of_toModule valid, valid, rfl⟩
  · rintro ⟨p, m, i, code, parsed, -, made, assembled, -, valid, rfl⟩
    exact ⟨p, i, parsed, Assembly.ofProgram_eq_ok.2 ⟨m, made, assembled, code, valid⟩, rfl⟩

end SlotLang
