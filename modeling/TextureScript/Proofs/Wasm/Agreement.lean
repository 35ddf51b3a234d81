import TextureScript.Wasm.Machine

/-!
# A module sees of its host only the answers

Two hosts agree when they give the same answers to the same calls as long as the same calls are made
of both, whatever their states are. A module cannot tell such hosts apart: it makes the same calls
of both, and it ends in the same way with the same memories. This is shown for one instruction first
and then along the code of a function and the calls between functions. In particular, a host may
write down the calls that are made of it, and the run goes on as it would have gone without.
-/

namespace TextureScript.Wasm

variable {σ τ α β α' β' : Type}

/-- Hosts give the same answers in states that are related, and the states stay related. -/
def Host.Agree (perform : Host σ) (perform' : Host τ) (Related : σ → τ → Prop) : Prop :=
  ∀ operation args host host', Related host host' →
    (perform operation args host).1 = (perform' operation args host').1 ∧
      Related (perform operation args host).2 (perform' operation args host').2

/-- Worlds with the same memories and related hosts. -/
structure World.Agree (Related : σ → τ → Prop) (first : World σ) (second : World τ) : Prop where
  memories : first.memories = second.memories
  host : Related first.host second.host

/-- Calls under way with the same values in worlds that agree. -/
structure Machine.Agree (Related : σ → τ → Prop) (first : Machine σ) (second : Machine τ) :
    Prop where
  stack : first.stack = second.stack
  locals : first.locals = second.locals
  world : first.world.Agree Related second.world

/-- Two outcomes are the same apart from the hosts: both stop for the same reason, or both go on
with values that match. -/
inductive Outcome.Agree (Related : σ → τ → Prop) (Match : α → β → Prop) :
    Outcome σ α → Outcome τ β → Prop where
  | stopped (cause : Trap) {host : σ} {host' : τ} (related : Related host host') :
      Agree Related Match (.error (cause, host)) (.error (cause, host'))
  | went {value : α} {value' : β} (same : Match value value') :
      Agree Related Match (.ok value) (.ok value')

theorem Outcome.Agree.bind {Related : σ → τ → Prop} {Match : α → β → Prop}
    {Match' : α' → β' → Prop} {first : Outcome σ α} {first' : Outcome τ β}
    {next : α → Outcome σ α'} {next' : β → Outcome τ β'}
    (begins : Outcome.Agree Related Match first first')
    (goesOn : ∀ value value', Match value value' →
      Outcome.Agree Related Match' (next value) (next' value')) :
    Outcome.Agree Related Match' (first >>= next) (first' >>= next') := by
  cases begins with
  | stopped cause related => exact .stopped cause related
  | went same => exact goesOn _ _ same

/-- The same results of a function, in worlds that agree. -/
def ResultsAgree (Related : σ → τ → Prop) (given : List Int32 × World σ)
    (given' : List Int32 × World τ) : Prop :=
  given.1 = given'.1 ∧ given.2.Agree Related given'.2

/-- Functions give the same results in worlds that agree. -/
def Caller.Agree (call : Caller σ) (call' : Caller τ) (Related : σ → τ → Prop) : Prop :=
  ∀ function args world world', World.Agree Related world world' →
    Outcome.Agree Related (ResultsAgree Related) (call function args world)
      (call' function args world')

variable {Related : σ → τ → Prop}

theorem World.Agree.store? {world : World σ} {world' : World τ}
    (agree : world.Agree Related world') (memory address : Nat) (word : Int32) :
    (world.store? memory address word = none ∧ world'.store? memory address word = none) ∨
    ∃ after after', world.store? memory address word = some after ∧
      world'.store? memory address word = some after' ∧ after.Agree Related after' := by
  obtain ⟨memories, host⟩ := world
  obtain ⟨_, host'⟩ := world'
  obtain ⟨rfl, related⟩ := agree
  unfold World.store?
  by_cases fits : (memories[memory]?).any (address + 4 ≤ ·.size)
  · exact .inr ⟨_, _, if_pos fits, if_pos fits, rfl, related⟩
  · exact .inl ⟨if_neg fits, if_neg fits⟩

/-- One instruction. -/
theorem Instruction.agree_step {call : Caller σ} {call' : Caller τ}
    (calls : call.Agree call' Related) (l : Linked) {s : Machine σ} {s' : Machine τ}
    (agree : s.Agree Related s') (i : Instruction) :
    Outcome.Agree Related (Machine.Agree Related) (i.step l call s) (i.step l call' s') := by
  obtain ⟨stack, locals, world⟩ := s
  obtain ⟨_, _, world'⟩ := s'
  obtain ⟨rfl, rfl, same⟩ := agree
  cases i with
  | unreachable => exact .stopped _ same.host
  | const value => exact .went ⟨rfl, rfl, same⟩
  | drop =>
    cases stack with
    | nil => exact .stopped _ same.host
    | cons value stack => exact .went ⟨rfl, rfl, same⟩
  | localGet index =>
    simp only [step]
    cases locals[index.toNat]? with
    | none => exact .stopped _ same.host
    | some value => exact .went ⟨rfl, rfl, same⟩
  | localSet index =>
    cases stack with
    | nil => exact .stopped _ same.host
    | cons value stack =>
      simp only [step]
      split
      · exact .went ⟨rfl, rfl, same⟩
      · exact .stopped _ same.host
  | store align memory offset =>
    cases stack with
    | nil => exact .stopped _ same.host
    | cons value stack =>
      cases stack with
      | nil => exact .stopped _ same.host
      | cons address stack =>
        simp only [step]
        obtain ⟨stored, stored'⟩ | ⟨after, after', stored, stored', agree⟩ :=
          same.store? memory.toNat (address.toUInt32.toNat + offset.toNat) value
        · rw [stored, stored']
          exact .stopped _ same.host
        · rw [stored, stored']
          exact .went ⟨rfl, rfl, agree⟩
  | call function =>
    simp only [step]
    cases (l.arity? function).bind (takeArguments · stack) with
    | none => exact .stopped _ same.host
    | some taken =>
      have called := calls function taken.1 world world' same
      simp only
      generalize call function taken.1 world = outcome at called ⊢
      generalize call' function taken.1 world' = outcome' at called ⊢
      cases called with
      | stopped cause related => exact .stopped cause related
      | went results =>
        obtain ⟨given, agree⟩ := results
        simp only [given]
        exact .went ⟨rfl, rfl, agree⟩

/-- The code of a function. -/
theorem Instruction.agree_code {call : Caller σ} {call' : Caller τ}
    (calls : call.Agree call' Related) (l : Linked) (code : List Instruction) {s : Machine σ}
    {s' : Machine τ} (agree : s.Agree Related s') :
    Outcome.Agree Related (Machine.Agree Related) (code.foldlM (Instruction.step l call) s)
      (code.foldlM (Instruction.step l call') s') := by
  induction code generalizing s s' with
  | nil => exact .went agree
  | cons i code ih =>
    rw [List.foldlM_cons, List.foldlM_cons]
    exact (agree_step calls l agree i).bind fun _ _ later => ih later

namespace Linked

theorem agree_runBody {call : Caller σ} {call' : Caller τ} (calls : call.Agree call' Related)
    (l : Linked) (f : Function) (args : List Int32) {world : World σ} {world' : World τ}
    (agree : world.Agree Related world') :
    Outcome.Agree Related (ResultsAgree Related) (l.runBody call f args world)
      (l.runBody call' f args world') := by
  unfold runBody
  refine (Instruction.agree_code calls l f.body.code ⟨rfl, rfl, agree⟩).bind ?_
  intro s s' ended
  rw [ended.stack]
  cases takeArguments f.type.results.length s'.stack with
  | none => exact .stopped _ ended.world.host
  | some taken => exact .went ⟨rfl, ended.world⟩

/-- The functions of a module, by induction on how many further calls may be under way: a function
agrees with itself if the functions that it calls do. -/
theorem agree_call (l : Linked) {perform : Host σ} {perform' : Host τ}
    (hosts : perform.Agree perform' Related) (calls cells : Nat) :
    Caller.Agree (l.call perform calls cells) (l.call perform' calls cells) Related := by
  induction calls using Nat.strongRecOn generalizing cells with
  | ind calls ih =>
    intro function args world world' agree
    unfold call
    cases l.operations[function.toNat]? with
    | some operation =>
      simp only
      split
      · obtain ⟨answer, related⟩ := hosts operation args _ _ agree.host
        exact .went ⟨congrArg (fun word => [word]) answer, agree.memories, related⟩
      · exact .stopped _ agree.host
    | none =>
      simp only
      cases l.functions[function.toNat - l.operations.size]? with
      | none => exact .stopped _ agree.host
      | some f =>
        cases calls with
        | zero => exact .stopped _ agree.host
        | succ calls =>
          simp only
          split
          · exact agree_runBody (ih calls (Nat.lt_succ_self calls) _) l f args agree
          · exact .stopped _ agree.host

theorem agree_start (l : Linked) (c : Capacity) {perform : Host σ} {perform' : Host τ}
    (hosts : perform.Agree perform' Related) (function : UInt32) {world : World σ}
    {world' : World τ} (agree : world.Agree Related world') :
    Outcome.Agree Related (World.Agree Related) (l.start c perform function world)
      (l.start c perform' function world') := by
  have called := l.agree_call hosts c.calls c.cells function [] world world' agree
  unfold start
  generalize l.call perform c.calls c.cells function [] world = outcome at called ⊢
  generalize l.call perform' c.calls c.cells function [] world' = outcome' at called ⊢
  cases called with
  | stopped cause related => exact .stopped cause related
  | went same => exact .went same.2

end Linked

/-- Two runs end in the same way, with hosts that are related. -/
def RunsAgree (Related : σ → τ → Prop) (ran : Except RunFault Memory × σ)
    (ran' : Except RunFault Memory × τ) : Prop :=
  ran.1 = ran'.1 ∧ Related ran.2 ran'.2

namespace Module

/-- The entry of a module that starts with no other function. -/
theorem agree_execute_entry (m : Module) (l : Linked) (c : Capacity) {perform : Host σ}
    {perform' : Host τ} (hosts : perform.Agree perform' Related) (plain : m.start = none)
    {world : World σ} {world' : World τ} (agree : world.Agree Related world') :
    RunsAgree Related (m.execute l c perform world) (m.execute l c perform' world') := by
  unfold execute
  simp only [plain]
  cases m.entry? with
  | none => exact ⟨rfl, agree.host⟩
  | some entry =>
    have ended := l.agree_start c hosts entry agree
    simp only
    generalize l.start c perform entry world = outcome at ended ⊢
    generalize l.start c perform' entry world' = outcome' at ended ⊢
    cases ended with
    | stopped cause related => exact ⟨rfl, related⟩
    | @went after after' agree =>
      simp only [agree.memories]
      cases m.exportedMemory? after'.memories with
      | none => exact ⟨rfl, agree.host⟩
      | some memory => exact ⟨rfl, agree.host⟩

theorem agree_execute (m : Module) (l : Linked) (c : Capacity) {perform : Host σ}
    {perform' : Host τ} (hosts : perform.Agree perform' Related) {world : World σ}
    {world' : World τ} (agree : world.Agree Related world') :
    RunsAgree Related (m.execute l c perform world) (m.execute l c perform' world') := by
  cases starts : m.start with
  | none => exact m.agree_execute_entry l c hosts starts agree
  | some function =>
    have began := l.agree_start c hosts function agree
    unfold execute
    simp only [starts]
    generalize l.start c perform function world = outcome at began ⊢
    generalize l.start c perform' function world' = outcome' at began ⊢
    cases began with
    | stopped cause related => exact ⟨rfl, related⟩
    -- what is left is the run of the same module without the function that it starts with
    | went agree => exact agree_execute_entry { m with start := none } l c hosts rfl agree

/-- The run of a module. -/
theorem agree_run (m : Module) (c : Capacity) {perform : Host σ} {perform' : Host τ}
    (hosts : perform.Agree perform' Related) {host : σ} {host' : τ} (related : Related host host') :
    RunsAgree Related (m.run c perform host) (m.run c perform' host') := by
  unfold run
  split
  · exact ⟨rfl, related⟩
  · cases m.link? with
    | none => exact ⟨rfl, related⟩
    | some linked =>
      cases m.initialMemories? with
      | none => exact ⟨rfl, related⟩
      | some memories =>
        simp only
        split
        · exact m.agree_execute linked c hosts ⟨rfl, related⟩
        · exact ⟨rfl, related⟩

end Module

/-- Whatever the bytes are, a run on two hosts that agree ends in the same way. -/
theorem agree_runBytes (bytes : List UInt8) (c : Capacity) {perform : Host σ} {perform' : Host τ}
    (hosts : perform.Agree perform' Related) {host : σ} {host' : τ} (related : Related host host') :
    RunsAgree Related (runBytes bytes c perform host) (runBytes bytes c perform' host') := by
  unfold runBytes
  cases Module.decode? bytes with
  | none => exact ⟨rfl, related⟩
  | some m => exact m.agree_run c hosts related

/-! ## The calls of a run -/

/-- A call that a module made of its host. -/
structure HostCall where
  /-- The operation. -/
  operation : Operation
  /-- Its arguments. -/
  args : List Int32
  /-- The word that the host answered with. -/
  answer : Int32
deriving DecidableEq, Repr

/-- A host that also writes down the calls that are made of it and its answers, in order. -/
def Host.logged (perform : Host σ) : Host (σ × List HostCall) :=
  fun operation args (host, calls) =>
    let (answer, host) := perform operation args host
    (answer, (host, calls ++ [⟨operation, args, answer⟩]))

/-- The calls that the run of a module makes of its host. -/
def callsOf (bytes : List UInt8) (c : Capacity) (perform : Host σ) (host : σ) : List HostCall :=
  (runBytes bytes c perform.logged (host, [])).2.2

/-- Writing the calls down does not change the run. -/
theorem runBytes_logged (bytes : List UInt8) (c : Capacity) (perform : Host σ) (host : σ) :
    (runBytes bytes c perform.logged (host, [])).1 = (runBytes bytes c perform host).1 ∧
      (runBytes bytes c perform.logged (host, [])).2.1 = (runBytes bytes c perform host).2 := by
  have hosts : perform.logged.Agree perform fun logged host => logged.1 = host := by
    intro operation args logged host same
    subst same
    exact ⟨rfl, rfl⟩
  exact agree_runBytes bytes c hosts rfl

/-- Hosts that agree are called in the same way, and the runs agree. -/
theorem callsOf_eq_of_agree (bytes : List UInt8) (c : Capacity) {perform : Host σ}
    {perform' : Host τ} (hosts : perform.Agree perform' Related) {host : σ} {host' : τ}
    (related : Related host host') :
    callsOf bytes c perform host = callsOf bytes c perform' host' := by
  have logs : perform.logged.Agree perform'.logged fun first second =>
      Related first.1 second.1 ∧ first.2 = second.2 := by
    intro operation args first second same
    obtain ⟨answer, after⟩ := hosts operation args first.1 second.1 same.1
    refine ⟨answer, after, ?_⟩
    simp only [Host.logged, answer, same.2]
  exact (agree_runBytes bytes c logs ⟨related, rfl⟩).2.2

end TextureScript.Wasm
