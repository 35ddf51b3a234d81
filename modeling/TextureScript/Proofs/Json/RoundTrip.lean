import TextureScript.Json.Tooling

/-!
# Reading back what was written

A writer and a reader of documents belong together when the reader undoes the writer on every value
that fits the format, and reads nothing but values that fit. Most types fit as a whole; a count has
to stay below the bound that it is read with, and a material type must not carry a tag that stands
for another one. Lists and records keep these laws, so they hold of the whole tooling format. Hence,
whatever document a value was read from, what is written of it is read as the same value.
-/

namespace TextureScript

namespace Json

variable {α β : Type}

/-- A reader undoes a writer on the values that fit, and reads only these. -/
structure Transcribes (write : α → Json) (read : Json → Option α) (Fits : α → Prop) : Prop where
  /-- What is written of a value that fits is read as this value. -/
  back : ∀ value, Fits value → read (write value) = some value
  /-- What is read fits. -/
  fits : ∀ document value, read document = some value → Fits value

/-- Every value fits. -/
def Anything (_ : α) : Prop := True

theorem Transcribes.ofBack {write : α → Json} {read : Json → Option α}
    (back : ∀ value, read (write value) = some value) : Transcribes write read Anything :=
  ⟨fun value _ => back value, fun _ _ _ => trivial⟩

/-! ## Numbers, lists and variants -/

theorem transcribes_nat (bound : Nat) :
    Transcribes (fun n : Nat => .integer n) (nat? bound) (· < bound) where
  back := by
    intro value below
    have inside : 0 ≤ (value : Int) ∧ (value : Int) < bound := by omega
    simp only [nat?, if_pos inside, Int.toNat_natCast]
  fits := by
    intro document value read
    unfold nat? at read
    split at read
    · split at read
      · rename_i inside
        cases read
        omega
      · cases read
    · cases read

theorem transcribes_count :
    Transcribes (fun n : Nat => .integer n) count? (· < UInt64.size) :=
  transcribes_nat _

theorem uint8?_integer (n : UInt8) : uint8? (.integer n.toNat) = some n := by
  rw [uint8?, (transcribes_nat _).back _ n.toNat_lt, Option.map_some, UInt8.ofNat_toNat]

theorem uint16?_integer (n : UInt16) : uint16? (.integer n.toNat) = some n := by
  rw [uint16?, (transcribes_nat _).back _ n.toNat_lt, Option.map_some, UInt16.ofNat_toNat]

theorem uint32?_integer (n : UInt32) : uint32? (.integer n.toNat) = some n := by
  rw [uint32?, (transcribes_nat _).back _ n.toNat_lt, Option.map_some, UInt32.ofNat_toNat]

/-- What is read from a list of documents was read from one of them each. -/
theorem exists_of_mapM {read : Json → Option α} {documents : List Json} {values : List α}
    (all : documents.mapM read = some values) {value : α} (member : value ∈ values) :
    ∃ document, read document = some value := by
  induction documents generalizing values with
  | nil =>
    cases all
    cases member
  | cons document documents ih =>
    simp only [List.mapM_cons, Option.bind_eq_bind, Option.bind_eq_some_iff, Option.pure_def,
      Option.some.injEq] at all
    obtain ⟨first, head, later, rest, rfl⟩ := all
    rcases List.mem_cons.mp member with same | inside
    · exact ⟨document, same ▸ head⟩
    · exact ih rest inside

/-- A list is read as it was written when its items are. -/
theorem Transcribes.list {write : α → Json} {read : Json → Option α} {Fits : α → Prop}
    (items : Transcribes write read Fits) :
    Transcribes (fun values : List α => .array (values.map write)) (list? read)
      (fun values => ∀ value ∈ values, Fits value) where
  back := by
    intro values fit
    simp only [list?]
    induction values with
    | nil => rfl
    | cons value values ih =>
      have first := items.back value (fit value List.mem_cons_self)
      have rest := ih fun later member => fit later (List.mem_cons_of_mem _ member)
      simp only [List.map_cons, List.mapM_cons, first, rest]
      rfl
  fits := by
    intro document values read value member
    unfold list? at read
    split at read
    · obtain ⟨document, found⟩ := exists_of_mapM read member
      exact items.fits document value found
    · cases read

theorem bytes?_ofBytes (bytes : ByteArray) : bytes? (ofBytes bytes) = some bytes := by
  have items : Transcribes (fun n : UInt8 => .integer n.toNat) uint8? Anything :=
    .ofBack uint8?_integer
  have listed := items.list.back bytes.data.toList fun _ _ => trivial
  have same : bytes.data.toList.toByteArray = bytes := by
    apply ByteArray.ext
    rw [List.data_toByteArray, Array.toArray_toList]
  rw [bytes?, ofBytes, listed, Option.map_some, same]

/-- A variant is read from its name when no earlier one has the name. -/
theorem transcribes_variant {variants : List (String × α)} {name : α → String}
    (named : ∀ value, variants.lookup (name value) = some value) :
    Transcribes (fun value => .string (name value)) (variant? variants) Anything :=
  .ofBack named

/-! ## Records

A record is read field by field. -/

theorem bind_back {found : Option α} {value : α} {next : α → Option β} {result : β}
    (there : found = some value) (rest : next value = some result) :
    (found >>= next) = some result := by
  rw [there]
  exact rest

/-- A field is read back, and then the fields after it. -/
theorem field_back {field : Option Json} {document : Json} {read : Json → Option α} {value : α}
    {next : α → Option β} {result : β} (there : field = some document)
    (back : read document = some value) (rest : next value = some result) :
    (field >>= fun document => read document >>= next) = some result :=
  bind_back there (bind_back back rest)

/-- A record was read from its fields, each of which was there and was read. -/
theorem of_field {field : Option Json} {read : Json → Option α} {next : α → Option β} {result : β}
    (found : (field >>= fun document => read document >>= next) = some result) :
    ∃ document value, read document = some value ∧ next value = some result := by
  obtain ⟨document, -, inner⟩ := Option.bind_eq_some_iff.mp found
  obtain ⟨value, back, rest⟩ := Option.bind_eq_some_iff.mp inner
  exact ⟨document, value, back, rest⟩

theorem defaulted_back {field : Option Json} {document : Json} {read : Json → Option α}
    {usual value : α} (there : field = some document) (back : read document = some value) :
    defaulted? read usual field = some value := by
  rw [there]
  exact back

/-- What is read from a field that has a usual value fits when the usual value does. -/
theorem Transcribes.of_defaulted {write : α → Json} {read : Json → Option α} {Fits : α → Prop}
    (transcribes : Transcribes write read Fits) {usual : α} (fits : Fits usual)
    {field : Option Json} {value : α} (found : defaulted? read usual field = some value) :
    Fits value := by
  cases field with
  | none => exact Option.some.inj found ▸ fits
  | some document => exact transcribes.fits document value found

/-- What is read from a field that may be missing fits. -/
theorem Transcribes.of_optional {write : α → Json} {read : Json → Option α} {Fits : α → Prop}
    (transcribes : Transcribes write read Fits) {field : Option Json} {found : Option α}
    (optional : optional? read field = some found) (value : α) (present : found = some value) :
    Fits value := by
  unfold optional? at optional
  split at optional
  · simp [present] at optional
  · simp [present] at optional
  · obtain ⟨_, some, same⟩ := Option.map_eq_some_iff.mp optional
    cases same.trans present
    exact transcribes.fits _ value some

end Json

/-! ## The types of the format -/

open Json

theorem Severity.transcribes : Transcribes toJson ofJson? Anything :=
  .ofBack fun severity => by cases severity <;> decide

theorem Category.transcribes : Transcribes toJson ofJson? Anything :=
  transcribes_variant fun category => by cases category <;> decide

theorem Kind.transcribes : Transcribes toJson ofJson? Anything :=
  transcribes_variant fun kind => by cases kind <;> decide

theorem Operation.transcribes : Transcribes toJson ofJson? Anything :=
  transcribes_variant fun operation => by cases operation <;> decide

/-- A material type whose tag is its own: a tag that is kept as it was written is no known one. -/
def MaterialType.Proper : MaterialType → Prop
  | other tag => ∀ m ∈ known, m.tag ≠ tag
  | _ => True

theorem MaterialType.proper_ofTag (tag : String) : (ofTag tag).Proper := by
  unfold ofTag
  split
  · trivial
  split
  · trivial
  split
  · trivial
  simp_all [Proper, known, MaterialType.tag, eq_comm]

theorem MaterialType.transcribes : Transcribes toJson ofJson? Proper where
  back := by
    intro m proper
    cases m with
    | other tag =>
      have metalness : tag ≠ "PBRMetalness" := (proper .pbrMetalness (by decide)).symm
      have specular : tag ≠ "PBRSpecular" := (proper .pbrSpecular (by decide)).symm
      have standard : tag ≠ "UnityStandardSpecular" :=
        (proper .unityStandardSpecular (by decide)).symm
      have kept : ofTag tag = .other tag := by
        rw [ofTag, if_neg metalness, if_neg specular, if_neg standard]
      exact congrArg some kept
    | _ => decide
  fits := by
    intro document m read
    obtain ⟨tag, -, rfl⟩ := Option.map_eq_some_iff.mp read
    exact proper_ofTag tag

theorem Span.ofFields?_back (span : Span) :
    ofFields? [some (.integer span.start.line.toNat), some (.integer span.start.column.toNat),
      some (.integer span.stop.line.toNat), some (.integer span.stop.column.toNat)] =
        some span := by
  apply field_back rfl (uint32?_integer _)
  apply field_back rfl (uint32?_integer _)
  apply field_back rfl (uint32?_integer _)
  apply field_back rfl (uint32?_integer _)
  rfl

theorem Span.transcribes : Transcribes toJson ofJson? Anything :=
  .ofBack fun span => bind_back rfl (ofFields?_back span)

theorem Diagnostic.transcribes : Transcribes toJson ofJson? Anything := by
  apply Transcribes.ofBack
  intro d
  apply field_back rfl rfl
  apply field_back rfl (uint16?_integer _)
  apply field_back rfl (Severity.transcribes.back _ trivial)
  apply field_back rfl (Category.transcribes.back _ trivial)
  apply field_back rfl rfl
  apply bind_back (Span.ofFields?_back d.span)
  apply field_back rfl rfl
  -- an advice that is not there is not written, and reads as none
  obtain ⟨_, _, _, _, _, _, _, suggestion⟩ := d
  cases suggestion with
  | none => rfl
  | some advice => rfl

/-- The counts of a report stay below the bound for counts. -/
def Report.Counts (r : Report) : Prop :=
  r.totalErrors < UInt64.size ∧ r.totalWarnings < UInt64.size

theorem Report.transcribes : Transcribes toJson ofJson? Counts where
  back := by
    intro r counts
    apply bind_back rfl
    apply field_back rfl (Diagnostic.transcribes.list.back _ fun _ _ => trivial)
    apply field_back rfl (Diagnostic.transcribes.list.back _ fun _ _ => trivial)
    apply field_back rfl (transcribes_count.back _ counts.1)
    apply field_back rfl (transcribes_count.back _ counts.2)
    rfl
  fits := by
    intro document r read
    obtain ⟨fields, -, read⟩ := Option.bind_eq_some_iff.mp read
    split at read
    · obtain ⟨_, _, -, read⟩ := of_field read
      obtain ⟨_, _, -, read⟩ := of_field read
      obtain ⟨_, totalErrors, errors, read⟩ := of_field read
      obtain ⟨_, totalWarnings, warnings, read⟩ := of_field read
      cases read
      exact ⟨transcribes_count.fits _ _ errors, transcribes_count.fits _ _ warnings⟩
    · cases read

theorem MaterialSlot.transcribes :
    Transcribes toJson ofJson? fun slot => slot.materialType.Proper where
  back := by
    intro slot proper
    apply bind_back rfl
    apply field_back rfl (uint32?_integer _)
    apply field_back rfl rfl
    apply field_back rfl rfl
    apply field_back rfl (MaterialType.transcribes.back _ proper)
    rfl
  fits := by
    intro document slot read
    obtain ⟨fields, -, read⟩ := Option.bind_eq_some_iff.mp read
    split at read
    · obtain ⟨_, _, -, read⟩ := of_field read
      obtain ⟨_, _, -, read⟩ := of_field read
      obtain ⟨_, _, -, read⟩ := of_field read
      obtain ⟨_, type, found, read⟩ := of_field read
      cases read
      exact MaterialType.transcribes.fits _ _ found
    · cases read

theorem TextureSlot.transcribes : Transcribes toJson ofJson? Anything := by
  apply Transcribes.ofBack
  intro slot
  apply bind_back rfl
  apply field_back rfl (uint32?_integer _)
  apply field_back rfl rfl
  rfl

/-- The material types of the slots of a compiled script have tags of their own. -/
def CompiledModule.Proper (c : CompiledModule) : Prop :=
  ∀ slot ∈ c.materialSlots.toList, slot.materialType.Proper

theorem CompiledModule.transcribes : Transcribes toJson ofJson? Proper where
  back := by
    intro c proper
    apply bind_back rfl
    apply field_back rfl (bytes?_ofBytes _)
    apply field_back rfl (MaterialSlot.transcribes.list.back _ proper)
    apply field_back rfl (TextureSlot.transcribes.list.back _ fun _ _ => trivial)
    apply field_back rfl rfl
    rfl
  fits := by
    intro document c read
    obtain ⟨fields, -, read⟩ := Option.bind_eq_some_iff.mp read
    split at read
    · obtain ⟨_, _, -, read⟩ := of_field read
      obtain ⟨_, slots, found, read⟩ := of_field read
      obtain ⟨_, _, -, read⟩ := of_field read
      obtain ⟨_, _, -, read⟩ := of_field read
      cases read
      exact MaterialSlot.transcribes.list.fits _ _ found
    · cases read

/-- What a compilation came to fits the format: its module does, if there is one, and its report. -/
structure CompileResult.Fits (r : CompileResult) : Prop where
  /-- The material types of the module have tags of their own. -/
  compiled : ∀ c, r.compiled = some c → c.Proper
  /-- The counts of the report are below the bound for counts. -/
  report : r.report.Counts

theorem CompileResult.transcribes : Transcribes toJson ofJson? Fits where
  back := by
    intro r fits
    obtain ⟨success, compiled, report⟩ := r
    cases compiled with
    | none =>
      apply bind_back rfl
      apply field_back rfl rfl
      apply bind_back rfl
      apply field_back rfl (Report.transcribes.back _ fits.report)
      rfl
    | some c =>
      have back := CompiledModule.transcribes.back c (fits.compiled c rfl)
      apply bind_back rfl
      apply field_back rfl rfl
      apply bind_back (congrArg (Option.map some) back)
      apply field_back rfl (Report.transcribes.back _ fits.report)
      rfl
  fits := by
    intro document r read
    obtain ⟨fields, -, read⟩ := Option.bind_eq_some_iff.mp read
    split at read
    · obtain ⟨_, _, -, read⟩ := of_field read
      obtain ⟨compiled, module, read⟩ := Option.bind_eq_some_iff.mp read
      obtain ⟨_, report, found, read⟩ := of_field read
      cases read
      exact ⟨CompiledModule.transcribes.of_optional module, Report.transcribes.fits _ _ found⟩
    · cases read

theorem InputImage.transcribes : Transcribes toJson ofJson? Anything := by
  apply Transcribes.ofBack
  intro input
  apply bind_back rfl
  apply field_back rfl rfl
  apply field_back rfl (uint32?_integer _)
  rfl

theorem Image.transcribes : Transcribes toJson ofJson? Anything := by
  apply Transcribes.ofBack
  intro image
  apply bind_back rfl
  apply field_back rfl (uint32?_integer _)
  apply field_back rfl (uint32?_integer _)
  apply field_back rfl (bytes?_ofBytes _)
  rfl

/-- Limits on numbers are below the bound for counts. -/
def StoreConfig.Counts (c : StoreConfig) : Prop :=
  c.maxImages < UInt64.size ∧ c.maxTotalBytes < UInt64.size

theorem StoreConfig.transcribes : Transcribes toJson ofJson? Counts where
  back := by
    intro c counts
    apply bind_back rfl
    apply bind_back (defaulted_back rfl (uint32?_integer _))
    apply bind_back (defaulted_back rfl (transcribes_count.back _ counts.1))
    apply bind_back (defaulted_back rfl (transcribes_count.back _ counts.2))
    rfl
  fits := by
    intro document c read
    obtain ⟨fields, -, read⟩ := Option.bind_eq_some_iff.mp read
    split at read
    · obtain ⟨_, -, read⟩ := Option.bind_eq_some_iff.mp read
      obtain ⟨images, foundImages, read⟩ := Option.bind_eq_some_iff.mp read
      obtain ⟨bytes, foundBytes, read⟩ := Option.bind_eq_some_iff.mp read
      cases read
      exact ⟨transcribes_count.of_defaulted (by decide) foundImages,
        transcribes_count.of_defaulted (by decide) foundBytes⟩
    · cases read

/-! ## The whole format -/

/-- A reader undoes a writer exactly on the values that fit, and whatever document a value was read
from, the value is read again from what is written of it. -/
structure Json.RoundTrips {α : Type} (write : α → Json) (read : Json → Option α)
    (Fits : α → Prop) : Prop where
  /-- A value is read back exactly when it fits. -/
  back : ∀ value, read (write value) = some value ↔ Fits value
  /-- A value that was read is read again. -/
  again : ∀ document value, read document = some value → read (write value) = some value

theorem Json.Transcribes.roundTrips {α : Type} {write : α → Json} {read : Json → Option α}
    {Fits : α → Prop} (transcribes : Transcribes write read Fits) :
    RoundTrips write read Fits where
  back := fun value => ⟨transcribes.fits _ value, transcribes.back value⟩
  again := fun document value found =>
    transcribes.back value (transcribes.fits document value found)

/-- Every type of the tooling format is read back from what is written of it, unless a material type
carries a tag that stands for another one, which no tag read as a material type does, or a count is
beyond the bound for counts; and what was read from any document is read again. -/
theorem tooling_roundTrips :
    RoundTrips Span.toJson Span.ofJson? Anything ∧
    RoundTrips Diagnostic.toJson Diagnostic.ofJson? Anything ∧
    RoundTrips Report.toJson Report.ofJson? Report.Counts ∧
    RoundTrips CompileResult.toJson CompileResult.ofJson? CompileResult.Fits ∧
    RoundTrips CompiledModule.toJson CompiledModule.ofJson? CompiledModule.Proper ∧
    RoundTrips InputImage.toJson InputImage.ofJson? Anything ∧
    RoundTrips Image.toJson Image.ofJson? Anything ∧
    RoundTrips StoreConfig.toJson StoreConfig.ofJson? StoreConfig.Counts ∧
    RoundTrips Operation.toJson Operation.ofJson? Anything ∧
    RoundTrips Kind.toJson Kind.ofJson? Anything ∧
    RoundTrips Severity.toJson Severity.ofJson? Anything ∧
    RoundTrips MaterialType.toJson MaterialType.ofJson? MaterialType.Proper ∧
    ∀ tag, (MaterialType.ofTag tag).Proper :=
  ⟨Span.transcribes.roundTrips, Diagnostic.transcribes.roundTrips, Report.transcribes.roundTrips,
    CompileResult.transcribes.roundTrips, CompiledModule.transcribes.roundTrips,
    InputImage.transcribes.roundTrips, Image.transcribes.roundTrips,
    StoreConfig.transcribes.roundTrips, Operation.transcribes.roundTrips,
    Kind.transcribes.roundTrips, Severity.transcribes.roundTrips,
    MaterialType.transcribes.roundTrips, MaterialType.proper_ofTag⟩

end TextureScript
