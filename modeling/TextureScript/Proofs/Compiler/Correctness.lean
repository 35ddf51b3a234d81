import TextureScript.Proofs.Assembly.Correctness
import TextureScript.Proofs.Compiler.Simulation
import TextureScript.Proofs.Store.History

/-!
# A compiled script does what the script says

The stages are put together. A text that is compiled has a script without errors, so the script can
be followed and its plan evaluates alike. The module of the plan runs to its end on the store, with
the store as its host, and leaves the values of the outputs in its slots. What is collected from the
slots is then what the script exports.
-/

namespace TextureScript

/-! ## Outputs in slots -/

/-- Slots that hold the bytes of words hold the words. -/
theorem words_of_bytes {α β δ : Type} {memory : Wasm.Memory} {slots : List α} {outputs : List β}
    {offset : α → Nat} {value : β → Int32} {slotKey : α → δ} {outputKey : β → δ}
    (bytes : (slots.map fun slot => (slotKey slot, memory.bytesAt (offset slot) 4)) =
      outputs.map fun output => (outputKey output, Wasm.wordBytes (value output)))
    (inside : ∀ slot ∈ slots, offset slot + 4 ≤ memory.size) :
    (slots.map fun slot => (slotKey slot, memory.word? (offset slot))) =
      outputs.map fun output => (outputKey output, some (value output)) := by
  apply List.ext_getElem?
  intro index
  have here := congrArg (·[index]?) bytes
  simp only [List.getElem?_map] at here ⊢
  cases listed : slots[index]? with
  | none =>
    rw [listed] at here
    cases found : outputs[index]? with
    | none => rfl
    | some output =>
      rw [found] at here
      cases here
  | some slot =>
    rw [listed] at here
    cases found : outputs[index]? with
    | none =>
      rw [found] at here
      cases here
    | some output =>
      rw [found] at here
      obtain ⟨key, stored⟩ := Prod.mk.inj (Option.some.inj here)
      have member := List.mem_of_getElem? listed
      simp only [Option.map_some, key, Wasm.Memory.word?_of_bytesAt (inside slot member) stored]

/-- The images of slots that hold words are the images of the words. -/
theorem Store.images_of_words {α β : Type} {store : Store} {memory : Wasm.Memory} {slots : List α}
    {outputs : List β} {offset : α → UInt32} {value : β → Int32}
    {slotKey : α → String × String} {outputKey : β → String × String}
    (words : (slots.map fun slot => (slotKey slot, memory.word? (offset slot).toNat)) =
      outputs.map fun output => (outputKey output, some (value output))) :
    (slots.filterMap fun slot =>
      (store.slotImage? memory (offset slot)).map (slotKey slot, ·)) =
      outputs.filterMap fun output =>
        ((Handle.ofWire? (value output)).bind store.image?).map (outputKey output, ·) := by
  -- both sides read the image off the pair of a key and a word
  have read := congrArg (List.filterMap fun pair : (String × String) × Option Int32 =>
    ((pair.2.bind Handle.ofWire?).bind store.image?).map (pair.1, ·)) words
  rw [List.filterMap_map, List.filterMap_map] at read
  exact read

namespace Evaluation.Stored

variable {σ : Type} {e : Evaluation σ} {plan : Plan} {compiled : CompiledModule}
  {memory : Wasm.Memory}

/-- The images of the channels are those that the values of their sources stand for. -/
theorem liveChannels_eq (stored : e.Stored plan compiled memory) (store : Store) :
    store.liveChannels compiled memory = plan.channels.toList.filterMap fun output =>
      ((Handle.ofWire? (output.source.value e.values)).bind store.image?).map
        ((output.material, output.channel), ·) := by
  have keyed := congrArg (List.map fun slot : String × String × MaterialType × List UInt8 =>
    ((slot.1, slot.2.1), slot.2.2.2)) stored.channels
  rw [List.map_map, List.map_map] at keyed
  exact Store.images_of_words (words_of_bytes keyed stored.channelsInside)

/-- The images of the textures are those that the values of their sources stand for. -/
theorem liveTextures_eq (stored : e.Stored plan compiled memory) (store : Store) :
    store.liveTextures compiled memory = plan.textures.toList.filterMap fun output =>
      ((Handle.ofWire? (output.source.value e.values)).bind store.image?).map
        ((texturesCategory, output.name), ·) := by
  have keyed := congrArg (List.map fun slot : String × List UInt8 =>
    ((texturesCategory, slot.1), slot.2)) stored.textures
  rw [List.map_map, List.map_map] at keyed
  exact Store.images_of_words (words_of_bytes keyed stored.texturesInside)

end Evaluation.Stored

namespace Resolution.Simulates

variable {inputs : List InputImage} {start : Store} {r : Resolution} {p : Progress Store}

/-- What is collected from the slots of a plan is what the script has recorded. -/
theorem collect_eq_exported (agree : Simulates Store.host inputs start r p)
    {compiled : CompiledModule} {memory : Wasm.Memory}
    (stored : (r.evaluation Store.host start).Stored r.plan compiled memory) :
    p.host.collect compiled memory = p.exported := by
  have textures : p.host.liveTextures compiled memory = p.textureImages := by
    rw [stored.liveTextures_eq, Progress.textureImages, agree.textures, List.filterMap_map]
    rfl
  have channels : p.host.liveChannels compiled memory = p.channelImages := by
    rw [stored.liveChannels_eq, Progress.channelImages, agree.channels, List.filterMap_map]
    rfl
  rw [Store.collect_eq, textures, channels, Progress.exported]

end Resolution.Simulates

/-! ## The whole -/

namespace Store

/-- A compiled script runs to its end on every machine that accepts it, and there are such machines.
It leaves the store as following the script does, and it exports the images that the script
exports: under each category and name that of the last channel recorded with this key, or else that
of the last texture. -/
theorem run_compiled_eq_interpret {content name : String} {store : Store}
    (reachable : store.Reachable) {compiled : CompiledModule}
    (compiles : (compile content name store.inputs).compiled = some compiled) :
    ∃ final, (SourceText.ofString name content).script.interpret host store.inputs store =
        some final ∧
      final.exported.Shows final.image? ∧
      (∃ c : Wasm.Capacity, c.Accepts compiled.wasm.data.toList) ∧
      ∀ c : Wasm.Capacity, c.Accepts compiled.wasm.data.toList →
        store.run compiled c = (.ok final.exported, final.host) := by
  obtain ⟨clean, assembled⟩ := compiled_eq_some.mp compiles
  obtain ⟨assembles, rfl⟩ := Plan.assemble_eq_ok.mp assembled
  obtain ⟨final, followed, agree⟩ := Script.interpret_of_resolve _ reachable.invariant.inputNames
    ⟨clean.resolved, assembles.steps_lt⟩ host store
  refine ⟨final, followed, final.exported_shows, assembles.exists_accepts, ?_⟩
  intro c accepts
  have collected := agree.collect_eq_exported (assembles.stored_finalMemory _)
  have left : (((SourceText.ofString name content).script.resolve store.inputs).plan.evaluate
    host store).host = final.host := agree.host
  rw [run, Plan.runBytes_module assembles accepts, left]
  simp only [← collected]
  rfl

/-- A store with a black image under the name `a`. -/
def blackInput : Store :=
  serveAll {} [.addInput "a" 1 1 ⟨#[0, 0, 0, 255]⟩]

theorem reachable_blackInput : blackInput.Reachable :=
  ⟨{}, _, rfl⟩

/-- A script with a call in a call, on a machine with the room that machines have. -/
theorem run_compiled_eq_interpret_nested :
    ∃ (compiled : CompiledModule) (final : Progress Store),
      (compile "(stone, albedo, PBRMetalness) = darken(invert_color(a), 55); export a;"
        defaultScriptName blackInput.inputs).compiled = some compiled ∧
      blackInput.run compiled = (.ok final.exported, final.host) ∧
      (final.exported.image? "stone" "albedo").map (·.pixels.data.toList) =
        some [200, 200, 200, 255] := by
  have evaluated : (compile "(stone, albedo, PBRMetalness) = darken(invert_color(a), 55); export a;"
      defaultScriptName blackInput.inputs).compiled.isSome = true := by
    decide +kernel
  have shown : ((SourceText.ofString defaultScriptName
      "(stone, albedo, PBRMetalness) = darken(invert_color(a), 55); export a;").script.interpret
        host blackInput.inputs blackInput).map (fun final =>
          (final.image? "stone" "albedo").map (·.pixels.data.toList)) =
      some (some [200, 200, 200, 255]) := by
    decide +kernel
  obtain ⟨compiled, compiles⟩ := Option.isSome_iff_exists.mp evaluated
  have accepts : ({} : Wasm.Capacity).Accepts compiled.wasm.data.toList := by
    obtain ⟨-, assembled⟩ := compiled_eq_some.mp compiles
    obtain ⟨assembles, rfl⟩ := Plan.assemble_eq_ok.mp assembled
    rw [assembles.accepts_iff]
    decide +kernel
  obtain ⟨final, followed, shows, -, ran⟩ :=
    run_compiled_eq_interpret reachable_blackInput compiles
  rw [followed] at shown
  refine ⟨compiled, final, compiles, ran {} accepts, ?_⟩
  rw [shows.images]
  exact Option.some.inj shown

end Store

end TextureScript
