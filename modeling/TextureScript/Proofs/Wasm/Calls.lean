import TextureScript.Wasm.Machine

/-!
# A module acts on its host by calls only

Whatever a module is and however its run ends, the state of the host after the run is what some
calls of operations made of the state before it. The step of an instruction passes the state on or
hands it to a call, and a run puts steps together, so this is shown for one step first and then
along the code of a function and the calls between functions.
-/

namespace TextureScript.Wasm

variable {σ α β : Type}

/-- The state of a host after some calls, one after the other. -/
def Host.performAll (perform : Host σ) (host : σ) (calls : List (Operation × List Int32)) : σ :=
  calls.foldl (fun host call => (perform call.1 call.2 host).2) host

/-- Some calls lead from one state of a host to another. -/
def Host.Reaches (perform : Host σ) (before after : σ) : Prop :=
  ∃ calls, after = perform.performAll before calls

namespace Host.Reaches

variable {perform : Host σ}

theorem refl (host : σ) : perform.Reaches host host :=
  ⟨[], rfl⟩

theorem call (operation : Operation) (args : List Int32) (host : σ) :
    perform.Reaches host (perform operation args host).2 :=
  ⟨[(operation, args)], rfl⟩

theorem trans {first second third : σ} (earlier : perform.Reaches first second)
    (later : perform.Reaches second third) : perform.Reaches first third := by
  obtain ⟨before, rfl⟩ := earlier
  obtain ⟨after, rfl⟩ := later
  exact ⟨before ++ after, List.foldl_append.symm⟩

end Host.Reaches

/-- The state of the host that an outcome leaves, when the state that goes with a value is given. -/
def Outcome.left (host : α → σ) : Outcome σ α → σ
  | .ok value => host value
  | .error trap => trap.2

/-- Going on after an outcome leads further from the state that it leaves. -/
theorem Outcome.reaches_bind {perform : Host σ} {start : σ} {host : α → σ} {next : β → σ}
    {first : Outcome σ α} {second : α → Outcome σ β}
    (begins : perform.Reaches start (first.left host))
    (goesOn : ∀ value, first = .ok value →
      perform.Reaches (host value) ((second value).left next)) :
    perform.Reaches start (Outcome.left next (first >>= second)) := by
  cases first with
  | error trap => exact begins
  | ok value => exact begins.trans (goesOn value rfl)

/-- A way to call functions acts on the host by calls of operations only. -/
def Caller.ActsByCalls (call : Caller σ) (perform : Host σ) : Prop :=
  ∀ function args world,
    perform.Reaches world.host (Outcome.left (·.2.host) (call function args world))

theorem World.host_store? {world after : World σ} {memory address : Nat} {word : Int32}
    (stored : world.store? memory address word = some after) : after.host = world.host := by
  unfold World.store? at stored
  split at stored
  · cases stored
    rfl
  · cases stored

/-- An instruction acts on the host by calls only. -/
theorem Instruction.reaches_step {perform : Host σ} {call : Caller σ}
    (acts : call.ActsByCalls perform) (l : Linked) (s : Machine σ) (i : Instruction) :
    perform.Reaches s.world.host (Outcome.left (·.world.host) (i.step l call s)) := by
  cases i with
  | unreachable | const => exact .refl _
  | drop | localGet =>
    simp only [step]
    split
    · exact .refl _
    · exact .refl _
  | localSet =>
    simp only [step]
    split
    · split
      · exact .refl _
      · exact .refl _
    · exact .refl _
  | store align memory offset =>
    simp only [step]
    split
    · split
      · rename_i after stored
        simp only [Outcome.left, World.host_store? stored]
        exact .refl _
      · exact .refl _
    · exact .refl _
  | call function =>
    simp only [step]
    split
    · exact .refl _
    · rename_i args stack _
      have called := acts function args s.world
      split
      · rename_i trap failed
        rw [failed] at called
        exact called
      · rename_i results world succeeded
        rw [succeeded] at called
        exact called

/-- Code acts on the host by calls only. -/
theorem Instruction.reaches_code {perform : Host σ} {call : Caller σ}
    (acts : call.ActsByCalls perform) (l : Linked) (code : List Instruction) (s : Machine σ) :
    perform.Reaches s.world.host
      (Outcome.left (·.world.host) (code.foldlM (Instruction.step l call) s)) := by
  induction code generalizing s with
  | nil => exact .refl _
  | cons i code ih =>
    rw [List.foldlM_cons]
    exact Outcome.reaches_bind (reaches_step acts l s i) fun after _ => ih after

namespace Linked

/-- The body of a function acts on the host by calls only. -/
theorem reaches_runBody {perform : Host σ} {call : Caller σ} (acts : call.ActsByCalls perform)
    (l : Linked) (f : Function) (args : List Int32) (world : World σ) :
    perform.Reaches world.host (Outcome.left (·.2.host) (l.runBody call f args world)) := by
  unfold runBody
  apply Outcome.reaches_bind (Instruction.reaches_code acts l f.body.code _)
  intro s _
  split
  · exact .refl _
  · exact .refl _

/-- A function acts on the host by calls only: a function of the module does so if the functions
that it calls do, and these may make one call less. -/
theorem actsByCalls_call (l : Linked) (perform : Host σ) (calls cells : Nat) :
    Caller.ActsByCalls (l.call perform calls cells) perform := by
  induction calls generalizing cells with
  | zero =>
    intro function args world
    unfold call
    split
    · split
      · exact .call _ _ _
      · exact .refl _
    · split
      · exact .refl _
      · exact .refl _
      · contradiction
  | succ calls ih =>
    intro function args world
    unfold call
    split
    · split
      · exact .call _ _ _
      · exact .refl _
    · split
      · exact .refl _
      · contradiction
      · split
        · rename_i same _ _
          cases same
          exact reaches_runBody (ih _) l _ args world
        · exact .refl _

theorem reaches_start (l : Linked) (c : Capacity) (perform : Host σ) (function : UInt32)
    (world : World σ) :
    perform.Reaches world.host (Outcome.left (·.host) (l.start c perform function world)) := by
  have called := l.actsByCalls_call perform c.calls c.cells function [] world
  unfold start
  cases outcome : l.call perform c.calls c.cells function [] world with
  | error trap =>
    rw [outcome] at called
    exact called
  | ok result =>
    rw [outcome] at called
    exact called

end Linked

namespace Module

theorem reaches_execute (m : Module) (l : Linked) (c : Capacity) (perform : Host σ)
    (world : World σ) : perform.Reaches world.host (m.execute l c perform world).2 := by
  have along (function : UInt32) (started : World σ) :=
    l.reaches_start c perform function started
  unfold execute
  simp only
  split
  · rename_i cause host failed
    split at failed
    · cases failed
    · have began := along ‹_› world
      rw [failed] at began
      exact began
  · rename_i started succeeded
    have begins : perform.Reaches world.host started.host := by
      split at succeeded
      · cases succeeded
        exact .refl _
      · have began := along ‹_› world
        rw [succeeded] at began
        exact began
    split
    · exact begins
    · have ended := along ‹_› started
      split
      · rename_i failed
        rw [failed] at ended
        exact begins.trans ended
      · rename_i succeeded
        rw [succeeded] at ended
        split
        · exact begins.trans ended
        · exact begins.trans ended

/-- However the run of a module ends, it has acted on the host by calls only. -/
theorem reaches_run (m : Module) (c : Capacity) (perform : Host σ) (host : σ) :
    perform.Reaches host (m.run c perform host).2 := by
  unfold run
  split
  · exact .refl _
  · split
    · exact .refl _
    · exact .refl _
    · split
      · exact m.reaches_execute _ c perform _
      · exact .refl _

end Module

/-- However the run of some bytes ends, it has acted on the host by calls only. -/
theorem reaches_runBytes (bytes : List UInt8) (c : Capacity) (perform : Host σ) (host : σ) :
    perform.Reaches host (runBytes bytes c perform host).2 := by
  unfold runBytes
  split
  · exact .refl _
  · exact Module.reaches_run _ c perform host

end TextureScript.Wasm
