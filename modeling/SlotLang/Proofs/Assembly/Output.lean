import SlotLang.Proofs.Basic
import SlotLang.Assembly.Instance

/-!
# The output of an instance

`State.trace` lists what an execution prints, step by step. An instance buffers these values until they
are taken: by an operation of its own, or at the end of a successful run of the entry point. In any
sequence of operations the values that were taken and those that are still there are the values that were
printed, in order (`Instance.serveAll_output`).
-/

open List

namespace SlotLang.Assembly

namespace State

def printed? (s : State) : Option Value :=
  match s.frame.code, s.frame.stack with
  | .print :: _, .i64 v :: _ => some v
  | _, _ => none

/-- The values that an execution of at most `fuel` steps prints. -/
def trace (m : Module) : Nat → State → List Value
  | 0, _ => []
  | fuel + 1, s =>
    s.printed?.toList ++
      match s.step m with
      | .running t => t.trace m fuel
      | _ => []

/-- The store after a step. -/
def storeAfter (s : State) : Progress → Store
  | .running t => t.store
  | .finished _ store | .trapped _ store => store
  | .stuck => s.store

variable {m : Module} {s : State}

theorem storeAfter_proceedWith (f : Option Frame) : s.storeAfter (s.proceedWith f) = s.store := by
  cases f <;> rfl

theorem storeAfter_leave (result : Option Value) : s.storeAfter (s.leave result) = s.store := by
  unfold leave
  split <;> rfl

theorem storeAfter_ret : s.storeAfter s.ret = s.store := by
  unfold ret
  split
  · split
    · exact storeAfter_leave _
    · rfl
  · exact storeAfter_leave _

theorem storeAfter_call (index : UInt32) (rest : List Instr) :
    s.storeAfter (s.call m index rest) = s.store := by
  unfold call
  split
  · rfl
  · dsimp only
    split
    · rfl
    · split
      · rfl
      · split <;> rfl

theorem output_storeAfter_exec (i : Instr) (rest : List Instr) (other : i ≠ .print) :
    (s.storeAfter (s.exec m i rest)).output = s.store.output := by
  unfold exec
  dsimp only
  split
  any_goals exact absurd rfl other
  any_goals exact congrArg Store.output (storeAfter_proceedWith _)
  any_goals exact congrArg Store.output (storeAfter_call _ _)
  any_goals exact congrArg Store.output storeAfter_ret
  any_goals rfl
  all_goals split <;> rfl

/-- Only printing adds to the output. -/
theorem output_storeAfter_step :
    (s.storeAfter (s.step m)).output.toList = s.store.output.toList ++ s.printed?.toList := by
  unfold step
  split
  · next i rest code =>
    by_cases prints : i = .print
    · subst prints
      unfold exec printed?
      rw [code]
      dsimp only
      cases s.frame.stack with
      | nil => simp [storeAfter]
      | cons c stack => cases c <;> simp [storeAfter]
    · have silent : s.printed? = none := by
        unfold printed?
        split
        · simp_all
        · rfl
      rw [output_storeAfter_exec i rest prints, silent]
      simp
  · next code _ => simp [printed?, code, storeAfter, withFrame]
  · next code _ => simp [printed?, code, storeAfter_ret]

/-- What an execution prints is behind what was in the buffer. -/
theorem output_run (m : Module) (fuel : Nat) (s : State) :
    (s.run m fuel).2.output.toList = s.store.output.toList ++ s.trace m fuel := by
  induction fuel generalizing s with
  | zero => simp [run, trace]
  | succ fuel ih =>
    have step := output_storeAfter_step (m := m) (s := s)
    rw [run, trace]
    cases progress : s.step m with
    | running t =>
      rw [progress] at step
      simp only [ih, ← append_assoc, ← step]
      rfl
    | _ =>
      rw [progress] at step
      exact step.trans (by rw [append_nil])

end State

/-! ## Operations -/

/-- What a host can do with an instance. -/
inductive Operation where
  | main
  | call (name : String) (args : List Value)
  | global (name : String)
  | globals
  | output

/-- What an instance answers. -/
inductive Reply where
  | values (vs : List Value)
  | value (v : Value)
  | named (globals : List (String × Value))
  | failed (e : UseError)

namespace Reply

def ofExcept {α : Type} (answer : α → Reply) : Except UseError α → Reply
  | .ok a => answer a
  | .error e => .failed e

/-- The printed values that the host is given. -/
def taken : Reply → List Value
  | values vs => vs
  | _ => []

/-- The operation was not carried out: a trap stops one that was. -/
def isRefusal : Reply → Bool
  | failed (.missingExport _) | failed (.argumentCount ..) => true
  | _ => false

end Reply

/-- What a sequence of operations leads to: the instance at its end, the answers, and all values that
were printed. -/
structure Log where
  inst : Instance
  replies : List Reply
  printed : List Value

namespace Instance

/-- Carries out an operation. -/
def serve (inst : Instance) : Operation → Instance × Reply
  | .main => inst.runMain.map id (.ofExcept .values)
  | .call name args => (inst.call name args).map id (.ofExcept .value)
  | .global name => (inst, .ofExcept .value (inst.global name))
  | .globals => (inst, .named inst.globals)
  | .output => inst.takeOutput.map id .values

/-- The frame that an operation executes, if it executes one. -/
def started? (inst : Instance) : Operation → Option Frame
  | .main => inst.code.entry.map .ofMain
  | .call name args => (inst.export? name).bind fun (count, frame) =>
      if args.length = count then some (frame args) else none
  | _ => none

def prints (inst : Instance) (op : Operation) : List Value :=
  (inst.started? op).elim [] fun f => State.trace inst.code patience { store := inst.store, frame := f }

/-- Carries out one operation after the other. -/
def serveAll (inst : Instance) : List Operation → Log
  | [] => ⟨inst, [], []⟩
  | op :: ops =>
    let rest := (inst.serve op).1.serveAll ops
    ⟨rest.inst, (inst.serve op).2 :: rest.replies, inst.prints op ++ rest.printed⟩

def buffer (inst : Instance) : List Value :=
  inst.store.output.toList

/-- An execution adds what it prints to the buffer, and if it fails it has trapped. -/
theorem execute_cases (inst : Instance) (f : Frame) : ∃ next result, inst.execute f = (next, result) ∧
    next.buffer =
      inst.buffer ++ State.trace inst.code patience { store := inst.store, frame := f } ∧
    ∀ e, result = .error e → ∃ t, e = .trapped t := by
  have output := State.output_run inst.code patience { store := inst.store, frame := f }
  unfold execute
  cases ran : State.run inst.code patience { store := inst.store, frame := f } with
  | mk outcome store =>
    rw [ran] at output
    cases outcome with
    | trapped t => exact ⟨_, _, rfl, output, fun e failed => ⟨t, (Except.error.inj failed).symm⟩⟩
    | _ => exact ⟨_, _, rfl, output, by rintro e ⟨⟩⟩

/-- What an operation hands over and what it leaves in the buffer is what was there before and what it
prints. An operation that is refused changes nothing. -/
theorem serve_cases (inst : Instance) (op : Operation) :
    (inst.serve op).2.taken ++ (inst.serve op).1.buffer = inst.buffer ++ inst.prints op ∧
      ((inst.serve op).2.isRefusal = true → (inst.serve op).1 = inst) := by
  cases op with
  | main =>
    cases entry : inst.code.entry with
    | none => simp [prints, started?, serve, runMain, entry, Reply.ofExcept, Reply.taken]
    | some d =>
      obtain ⟨next, result, ran, output, trapped⟩ := inst.execute_cases (.ofMain d)
      simp only [prints, started?, serve, runMain, entry, ran, Option.map_some, Option.elim_some,
        ← output]
      cases result with
      | ok v => simp [Reply.ofExcept, Reply.taken, Reply.isRefusal, takeOutput, buffer]
      | error e =>
        obtain ⟨t, rfl⟩ := trapped e rfl
        simp [Reply.ofExcept, Reply.taken, Reply.isRefusal]
  | call name args =>
    cases found : inst.export? name with
    | none => simp [prints, started?, serve, call, found, Reply.ofExcept, Reply.taken]
    | some target =>
      by_cases fits : args.length = target.1
      · obtain ⟨next, result, ran, output, trapped⟩ := inst.execute_cases (target.2 args)
        simp only [prints, started?, serve, call, found, fits, if_true, ran, Option.bind_some,
          Option.elim_some, ← output]
        cases result with
        | ok v => simp [Reply.ofExcept, Reply.taken, Reply.isRefusal]
        | error e =>
          obtain ⟨t, rfl⟩ := trapped e rfl
          simp [Reply.ofExcept, Reply.taken, Reply.isRefusal]
      · simp [prints, started?, serve, call, found, fits, Reply.ofExcept, Reply.taken]
  | global name =>
    cases value : inst.global name <;>
      simp [serve, value, prints, started?, Reply.ofExcept, Reply.taken]
  | globals | output => simp [serve, prints, started?, Reply.taken, Reply.isRefusal, takeOutput, buffer]

/-- The values that were taken and those that are still there are those that were there before and
those that were printed. -/
theorem serveAll_output (inst : Instance) (ops : List Operation) :
    (inst.serveAll ops).replies.flatMap Reply.taken ++ (inst.serveAll ops).inst.buffer =
      inst.buffer ++ (inst.serveAll ops).printed := by
  induction ops generalizing inst with
  | nil => simp [serveAll]
  | cons op ops ih =>
    simp only [serveAll, flatMap_cons, append_assoc, ih]
    rw [← append_assoc, (inst.serve_cases op).1, append_assoc]

end Instance

/-- **An instance neither loses nor repeats output.** After any sequence of operations, be they carried
out, stopped by a trap or refused, the values that were handed over, followed by those in the buffer, are
the values that were printed by all executions so far, in order. An operation that is refused leaves the
instance as it is, and so does reading globals. -/
theorem output_neither_lost_nor_repeated (m : Module) (ops : List Operation) :
    let log := (Instance.ofModule m).serveAll ops
    log.replies.flatMap Reply.taken ++ log.inst.buffer = log.printed ∧
      (∀ op, (log.inst.serve op).2.isRefusal = true → (log.inst.serve op).1 = log.inst) ∧
      (∀ name, (log.inst.serve (.global name)).1 = log.inst) ∧
      (log.inst.serve .globals).1 = log.inst := by
  intro log
  refine ⟨?_, fun op => (log.inst.serve_cases op).2, fun name => rfl, rfl⟩
  exact (Instance.ofModule m).serveAll_output ops

end SlotLang.Assembly
