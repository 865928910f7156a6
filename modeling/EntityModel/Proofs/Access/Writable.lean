import EntityModel.Proofs.Access.Lens

/-!
# Properties that may be written

A write along a way writes every bean on it anew, so each property of the way has to be writable on
the bean that holds it. Where a value is read at the end of a way, nothing else can go wrong: the
write succeeds if all holders allow it, and otherwise the last one that does not is what it fails
with (`PathAccessor.write_allowed`). It is the entity of the bean that is there which counts, not
the declared type. The empty path is read, but never written (`PathAccessor.empty_not_written`).
-/

namespace EntityModel

/-- A property of a bean, and the entity of the bean. -/
structure Holder where
  property : EntityProperty
  bean : Bean
  entity : Entity

namespace Holder

/-- A property may be written if it is not immutable, if it has a wither, or if it is a parameter of
the constructor that builds the beans of the entity. -/
def MayBeWritten (h : Holder) : Prop :=
  h.property.isImmutable = false ∨ h.property.backing.hasWither = true ∨
    ∃ k, h.entity.constructor = some k ∧ h.property.name ∈ k.parameters.map (·.name)

/-- The failure of a write to a property that may not be written. -/
def refusal (h : Holder) : Error :=
  .immutableProperty h.property.name h.bean.type

/-- A holder may be written if the entity of its bean can write its property. -/
lemma mayBeWritten_iff {h : Holder} :
    h.MayBeWritten ↔ h.entity.canWrite h.property = true := by
  unfold MayBeWritten Entity.canWrite Entity.isConstructorArgument
    PersistenceConstructor.hasParameter
  cases h.entity.constructor <;> simp [or_assoc]

end Holder

/-- The holders of properties that are read one after the other from a value. -/
inductive HeldBy (c : Context) : List EntityProperty → Value → List Holder → Prop where
  | here {x} :
    HeldBy c [] x []
  | through {p ps b e holders} :
    c.Opens b e →
    p.IsRead →
    HeldBy c ps (b.get p.name) holders →
    HeldBy c (p :: ps) b.toValue (⟨p, b, e⟩ :: holders)

open ContextM

variable {c c' : Context} {x y v root : Value} {p : EntityProperty} {ps : List EntityProperty}
  {b : Bean} {e : Entity} {path : EntityPath} {options : WriteOptions} {holders : List Holder}

/-- Where a value can be read there are holders on the way. -/
lemma Reads.heldBy (h : Reads c .reject ps x y) : ∃ holders, HeldBy c ps x holders := by
  induction h with
  | here => exact ⟨[], .here⟩
  | stopped answers => cases answers
  | through opens isRead _ ih =>
    obtain ⟨holders, below⟩ := ih
    exact ⟨_, .through opens isRead below⟩

/-! ### Writes after reads -/

/-- A bean whose entity was looked up is written as it is once the entity is known. -/
lemma writeProperty_of_looked (looked : (requiredEntity (.of b.type)).runOn c = some (.ok e, c')) :
    (writeProperty b.toValue p v).runOn c = (writeProperty b.toValue p v).runOn c' := by
  have known := requiredEntity_of_get? (get?_of_requiredEntity looked)
  have there : entityForValue b.toValue = requiredEntity (.of b.type) := rfl
  rw [writeProperty, there, runOn_bind_of_ok looked, runOn_bind_of_ok known]

/-- All entities that a write needs are looked up by the read along the same way, in the same order:
the write is the same before it and after it. -/
lemma writeOn_of_read (straight : IsStraight ps)
    (read : (readOn root path .reject x ps).runOn c = some (.ok y, c')) :
    (writeOn root path options v ps x).runOn c =
      (writeOn root path options v ps x).runOn c' := by
  induction ps generalizing c x with
  | nil =>
    cases read
    rfl
  | cons p ps ih =>
    unfold readOn at read
    split at read
    · cases read
    · obtain ⟨child, c₁, first, below⟩ := runOn_bind_ok.mp read
      obtain ⟨b, e, rfl, looked, direct, isRead, rfl⟩ := readProperty_ok.mp first
      cases ps with
      | nil =>
        cases below
        rw [writeOn, map_eq_pure_bind, runOn_bind, runOn_bind, writeProperty_of_looked looked]
      | cons next rest =>
        have null : (b.get p.name).isNull = false := by
          unfold readOn at below
          split at below
          · cases below
          · rename_i present
            exact Bool.eq_false_iff.mpr present
        -- afterwards the first bean is opened at once, and the write goes on from where it came to
        have evolves : c₁.Evolves false c' := Evolving.readOn _ _ _ _ _ _ _ _ below
        have opens := (Context.Opens.of_requiredEntity looked direct).evolve evolves
        have same := ih straight.tail below
        rw [writeOn_through straight first null,
          writeOn_through straight (opens.readProperty isRead) null, runOn_bind, runOn_bind, same]

/-! ### Allowed writes -/

namespace HeldBy

variable {next : EntityProperty} {rest : List EntityProperty}

/-- What holds the next property is not null. -/
lemma isNull_eq_false (held : HeldBy c (p :: ps) x holders) : x.isNull = false := by
  cases held
  rfl

/-- A context knows one entity for a bean at most. -/
lemma unique {others : List Holder} (held : HeldBy c ps x holders) (held' : HeldBy c ps x others) :
    holders = others := by
  induction held generalizing others with
  | here =>
    cases held'
    rfl
  | @through p ps b e holders opens _ _ ih =>
    generalize eq : b.toValue = x at held'
    cases held' with
    | through opens' _ below =>
      obtain rfl := Bean.toValue_injective eq
      cases opens.known.symm.trans opens'.known
      rw [ih below]

/-- A way is written along if all holders allow it. -/
lemma writes (held : HeldBy c ps x holders) (nonempty : ps ≠ [])
    (allowed : ∀ h ∈ holders, h.MayBeWritten) (v : Value) : ∃ new, Writes c v ps x new := by
  induction held with
  | here => exact absurd rfl nonempty
  | @through p ps b e holders opens isRead _ ih =>
    obtain ⟨first, others⟩ := List.forall_mem_cons.mp allowed
    have writable : e.canWrite p = true := Holder.mayBeWritten_iff.mp first
    cases ps with
    | nil => exact ⟨_, .leaf opens writable⟩
    | cons next rest =>
      obtain ⟨new, below⟩ := ih (List.cons_ne_nil _ _) others
      exact ⟨_, .through opens isRead writable below⟩

/-- A property that may not be written is refused with its name. -/
lemma writeProperty_refused {h : Holder} (opens : c.Opens h.bean h.entity)
    (forbidden : ¬h.MayBeWritten) (v : Value) :
    (writeProperty h.bean.toValue h.property v).runOn c = some (.error h.refusal, c) := by
  have there : entityForValue h.bean.toValue = requiredEntity (.of h.bean.type) := rfl
  have opened : h.entity.openInstance h.bean.toValue = .ok h.bean :=
    Entity.openInstance_ok.mpr ⟨opens.direct, rfl⟩
  have refused : h.entity.write h.bean h.property v = .error h.refusal := by
    rw [Entity.write, Bool.eq_false_iff.mpr (mt Holder.mayBeWritten_iff.mpr forbidden)]
    rfl
  rw [writeProperty, there, runOn_bind_of_ok (requiredEntity_of_get? opens.known),
    runOn_bind_of_ok (runOn_lift_ok.mpr ⟨opened, rfl⟩)]
  exact runOn_bind_of_error (runOn_lift_error.mpr ⟨refused, rfl⟩)

/-- The writes below the last holder that does not allow its own are made before that one fails, and
those above it are not tried. -/
lemma refused {before after : List Holder} {h : Holder} (held : HeldBy c ps x holders)
    (straight : IsStraight ps) (rejects : options.nulls = .reject)
    (split : holders = before ++ h :: after) (forbidden : ¬h.MayBeWritten)
    (allowed : ∀ h' ∈ after, h'.MayBeWritten) :
    (writeOn root path options v ps x).runOn c = some (.error h.refusal, c) := by
  induction held generalizing before with
  | here => cases before <;> cases split
  | @through p ps b e holders opens isRead below ih =>
    cases ps with
    | nil =>
      cases below
      obtain ⟨rfl, ⟨⟩, rfl⟩ : before = [] ∧ ⟨p, b, e⟩ = h ∧ [] = after := by
        cases before <;> simp_all
      exact runOn_map_error.mpr (writeProperty_refused opens forbidden v)
    | cons next rest =>
      rw [writeOn_through straight (opens.readProperty isRead) below.isNull_eq_false]
      cases before with
      | nil =>
        -- this is the last holder that forbids a write, so all writes below it succeed
        cases split
        obtain ⟨new, writes⟩ := below.writes (List.cons_ne_nil _ _) allowed v
        rw [runOn_bind_of_ok (writes.run straight.tail rejects)]
        exact runOn_map_error.mpr (writeProperty_refused opens forbidden new)
      | cons _ before =>
        cases split
        exact runOn_bind_of_error (ih straight.tail rfl)

end HeldBy

/-- Where not all elements meet a condition, there is a last one that does not. -/
lemma exists_last_not {α : Type} {P : α → Prop} {xs : List α} (h : ¬∀ a ∈ xs, P a) :
    ∃ before a after, xs = before ++ a :: after ∧ ¬P a ∧ ∀ b ∈ after, P b := by
  induction xs with
  | nil => exact absurd (List.forall_mem_nil _) h
  | cons a xs ih =>
    by_cases behind : ∀ b ∈ xs, P b
    · exact ⟨[], a, xs, rfl, fun ha => h (List.forall_mem_cons.mpr ⟨ha, behind⟩), behind⟩
    · obtain ⟨before, b, after, rfl, hb, further⟩ := ih behind
      exact ⟨a :: before, b, after, rfl, hb, further⟩

/-! ### Accessors -/

namespace PathAccessor

variable {a a' : PathAccessor}

/-- A path that is not empty is written from its first property on. -/
lemma writePath_of_nonempty (nonempty : path.properties ≠ []) :
    (writePath x path v options).runOn c =
      (writeOn x path options v path.properties x >>= fun r => pure (r.getD x)).runOn c := by
  unfold writePath EntityPath.isEmpty
  rw [List.isEmpty_eq_false_iff.mpr nonempty]
  rfl

/-- Where a value is read at the end of a way, another one is written there if and only if every
property of the way may be written on the bean that holds it. Otherwise the write fails with the
last property that may not be written and the type of its bean, and leaves the bean alone. -/
theorem write_allowed (way : path.IsWay) (read : a.read path = some (.ok x, a')) (v : Value) :
    ∃ holders, HeldBy a'.context path.properties a.bean holders ∧
      ((∃ later, a.write path v = some (.ok (), later)) ↔ ∀ h ∈ holders, h.MayBeWritten) ∧
      ((¬∀ h ∈ holders, h.MayBeWritten) → ∃ before h after later,
        holders = before ++ h :: after ∧ ¬h.MayBeWritten ∧ (∀ h' ∈ after, h'.MayBeWritten) ∧
          a.write path v = some (.error (.immutableProperty h.property.name h.bean.type), later) ∧
          later.bean = a.bean) := by
  obtain ⟨holders, held⟩ := (reads_of_read read).heldBy
  obtain ⟨⟨answer, context⟩, run, outcome⟩ := Option.bind_eq_some_iff.mp read
  cases outcome
  have same : (writeOn a.bean path {} v path.properties a.bean).runOn a.context = _ :=
    writeOn_of_read way.straight run
  -- the last holder that forbids a write is the one met first on the way back up
  have refused : (¬∀ h ∈ holders, h.MayBeWritten) → ∃ before h after,
      holders = before ++ h :: after ∧ ¬h.MayBeWritten ∧ (∀ h' ∈ after, h'.MayBeWritten) ∧
        a.write path v = some (.error h.refusal, { a with context }) := by
    intro forbidden
    obtain ⟨before, h, after, split, here, behind⟩ := exists_last_not forbidden
    have failed := same.trans (held.refused way.straight rfl split here behind)
    refine ⟨before, h, after, split, here, behind, write_eq_error.mpr ⟨?_, rfl⟩⟩
    rw [writePath_of_nonempty way.nonempty, runOn_bind_of_error failed]
  refine ⟨holders, held, ⟨?_, ?_⟩, ?_⟩
  · rintro ⟨later, written⟩
    by_contra forbidden
    obtain ⟨_, _, _, -, -, -, failed⟩ := refused forbidden
    cases failed.symm.trans written
  · intro allowed
    obtain ⟨new, writes⟩ := held.writes way.nonempty allowed v
    refine ⟨⟨context, new⟩, write_ok.mpr ?_⟩
    rw [writePath_of_nonempty way.nonempty,
      runOn_bind_of_ok (same.trans (writes.run way.straight rfl))]
    rfl
  · intro forbidden
    obtain ⟨before, h, after, split, here, behind, failed⟩ := refused forbidden
    exact ⟨before, h, after, _, split, here, behind, failed, rfl⟩

end PathAccessor

/-! ### Envelopes -/

namespace Sample

def envelope : TypeRef := .of "Envelope"

def envelopeDecl : TypeDecl where
  name := "Envelope"
  fields :=
    [{ name := "inner", type := envelope, modifiers := { isFinal := true } },
     { name := "stamp", type := .of "String" }]

/-- Envelopes in envelopes, which cannot be exchanged. -/
def posting : Mapping := { catalog := ⟨[envelopeDecl]⟩ }

def innerProperty : EntityProperty :=
  property envelopeDecl ⟨"inner", envelope, { isFinal := true }, []⟩

def stampProperty : EntityProperty := property envelopeDecl ⟨"stamp", .of "String", {}, []⟩

/-- An envelope has two properties, the envelope inside it and its stamp. -/
lemma outline_envelope :
    posting.outline envelope = .ok (envelopeDecl, [innerProperty, stampProperty]) := by
  cbv

/-- The entity of an envelope can write its stamp, but not what is inside. -/
lemma envelope_built {n : Nat} {e : Entity} (h : posting.build n envelope = .ok e) :
    e.access = .direct ∧ e.canWrite innerProperty = false ∧ e.canWrite stampProperty = true := by
  rw [Mapping.build_of_outline outline_envelope] at h
  cases h
  exact ⟨rfl, rfl, rfl⟩

/-- Once they are looked up, envelopes are known. -/
lemma envelope_known : ∃ c e,
    Context.after [.lookup (.entity envelope)] (.ofMapping posting) = some c ∧
      c.table.get? envelope = some (some e) := by
  have nothing : (Context.ofMapping posting).table.get? envelope = none := EntityTable.get?_empty
  -- an envelope leads to envelopes only
  have alone : ∀ p ∈ [innerProperty, stampProperty], posting.nestedType? envelope p = none :=
    List.forall_mem_cons.mpr ⟨rfl, List.forall_mem_singleton.mpr rfl⟩
  obtain ⟨d, vis, found, -⟩ := Mapping.exists_visits_alone
    (d := (Context.ofMapping posting).discovery) (EntityTable.contains_eq_false.mpr nothing)
    outline_envelope rfl alone
  obtain ⟨c, before, table_eq, -⟩ := Context.exists_looked_up rfl vis found
  exact ⟨c, _, before, table_eq ▸ found⟩

end Sample

namespace PathAccessor

/-- The stamp of an inner envelope may be written, but the envelope that holds it may not. -/
theorem write_allowed_stamp : ∃ (a : PathAccessor) (path : EntityPath) (later : PathAccessor),
    Context.after [.lookup (.entity Sample.envelope)] (.ofMapping Sample.posting) =
        some a.context ∧
      a.bean = .object "Envelope" [("inner", .object "Envelope" [("stamp", .text "inland")])] ∧
      path = ⟨[Sample.innerProperty, Sample.stampProperty]⟩ ∧
      a.read path = some (.ok (.text "inland"), a) ∧
      a.write path (.text "abroad") =
        some (.error (.immutableProperty "inner" "Envelope"), later) ∧
      later.bean = a.bean := by
  obtain ⟨c, e, before, known⟩ := Sample.envelope_known
  obtain ⟨direct, forbidden, allowed⟩ :=
    Sample.envelope_built ((Context.Sound.of_after before).built _ e known)
  have opens (fields : Dictionary Value) : c.Opens ⟨"Envelope", fields⟩ e := ⟨known, direct⟩
  let a : PathAccessor := ⟨c, .object "Envelope"
    [("inner", .object "Envelope" [("stamp", .text "inland")])]⟩
  have way : EntityPath.IsWay ⟨[Sample.innerProperty, Sample.stampProperty]⟩ :=
    ⟨List.cons_ne_nil _ _, isStraight_pair rfl rfl⟩
  have read : a.read ⟨[Sample.innerProperty, Sample.stampProperty]⟩ =
      some (.ok (.text "inland"), a) :=
    read_of_reads (.through (opens _) (.inl rfl) (.through (opens _) (.inl rfl) .here))
  have held : HeldBy c [Sample.innerProperty, Sample.stampProperty] a.bean _ :=
    .through (opens _) (.inl rfl) (.through (opens _) (.inl rfl) .here)
  -- the inner envelope may not be replaced, though the stamp within it may be
  obtain ⟨holders, held', -, refused⟩ := write_allowed way read (.text "abroad")
  obtain rfl := held.unique held'
  have inner_forbidden (b : Bean) : ¬Holder.MayBeWritten ⟨Sample.innerProperty, b, e⟩ :=
    fun h => Bool.false_ne_true (forbidden.symm.trans (Holder.mayBeWritten_iff.mp h))
  have stamp_allowed (b : Bean) : Holder.MayBeWritten ⟨Sample.stampProperty, b, e⟩ :=
    Holder.mayBeWritten_iff.mpr allowed
  obtain ⟨start, h, rest, later, split, last, -, failed, unchanged⟩ :=
    refused fun all => inner_forbidden _ (all _ List.mem_cons_self)
  have here : h ∈ start ++ h :: rest := by simp
  rw [← split] at here
  rcases List.mem_cons.mp here with rfl | here
  · exact ⟨a, _, later, before, rfl, rfl, read, failed, unchanged⟩
  · rw [List.mem_singleton.mp here] at last
    exact absurd (stamp_allowed _) last

/-- The empty path is read, and no holder on it forbids a write, yet it is not written. -/
theorem empty_not_written : ∃ (a : PathAccessor) (b : Bean), a.bean = b.toValue ∧
    Context.after [] (.ofMapping Sample.posting) = some a.context ∧
      Sample.posting.rules.access = .direct ∧ EntityPath.IsGiven {} ∧
      IsStraight ({} : EntityPath).properties ∧ a.read {} = some (.ok a.bean, a) ∧
      HeldBy a.context ({} : EntityPath).properties a.bean [] ∧
      ∀ v, a.write {} v = some (.error .emptyPathWrite, a) := by
  have given : EntityPath.IsGiven {} := by
    have before : Context.after [] (.ofMapping Sample.posting) = some (.ofMapping Sample.posting) :=
      rfl
    have resolved : (resolve (Text.trim "") Sample.envelope).runOn (.ofMapping Sample.posting) =
        some (.ok {}, .ofMapping Sample.posting) := rfl
    exact .of_resolve before rfl resolved
  have straight : IsStraight ({} : EntityPath).properties := List.forall_mem_nil _
  exact ⟨⟨.ofMapping Sample.posting, .object "Envelope" []⟩, ⟨"Envelope", []⟩, rfl, rfl, rfl, given,
    straight, rfl, .here, fun _ => rfl⟩

end PathAccessor

end EntityModel
