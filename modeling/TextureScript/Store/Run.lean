import TextureScript.Store.Export
import TextureScript.Store.Operations
import TextureScript.Wasm.Machine

/-!
# Running a compiled script

A run performs the operations of a module on a store and collects the outputs from the module's
memory. The images that it makes stay in the store, also when the run stops early.
-/

namespace TextureScript.Store

/-- The store as the host of a module. -/
def host : Wasm.Host Store :=
  fun operation args store => store.dispatch operation args

/-- Run a compiled script on a store, with a machine that has the given room. -/
def run (store : Store) (compiled : CompiledModule) (capacity : Wasm.Capacity := {}) :
    Except Wasm.RunFault ExportedImages × Store :=
  match Wasm.runBytes compiled.wasm.data.toList capacity host store with
  | (.ok memory, store) => (.ok (store.collect compiled memory), store)
  | (.error fault, store) => (.error fault, store)

end TextureScript.Store
