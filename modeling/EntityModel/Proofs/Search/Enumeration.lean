import EntityModel.Proofs.Entity.Candidates
import EntityModel.Proofs.Search.Routes

/-!
# All paths from a type

Where the fields on a chain of superclasses have names of their own, entities offer all of their
properties. So a successful search finds every route through the entities of a context that gets
behind no type twice and ends in an accepted property, each of them once and the shortest first
(`Context.findPaths_enumerates`).
-/

namespace EntityModel

open ContextM

namespace EntityPath

/-- The empty path may be continued by any properties behind which no type is met twice. -/
lemma admits_empty {ps : List EntityProperty} :
    ({} : EntityPath).Admits ps ↔ (ps.map (·.actual)).Nodup :=
  ⟨Admits.distinct, fun distinct => ⟨fun _ _ => rfl, distinct⟩⟩

end EntityPath

namespace Context

variable {m : Mapping} {accepts : EntityProperty → Bool} {c c' : Context} {t : TypeRef} {e : Entity}
  {p : EntityProperty} {qs : List EntityProperty} {offers offers' : Entity → List EntityProperty}

/-! ### Routes through all properties -/

/-- Routes are the same where the entities on them offer the same properties. -/
lemma routeFrom_congr (same : ∀ e, c.Meets offers t e → ∀ p, p ∈ offers e ↔ p ∈ offers' e) :
    c.RouteFrom offers t qs ↔ c.RouteFrom offers' t qs := by
  induction qs generalizing t with
  | nil => exact iff_of_false not_routeFrom_nil not_routeFrom_nil
  | cons p qs ih =>
    refine exists_congr fun e => and_congr_right fun found => ?_
    rw [route_cons_iff, route_cons_iff, ← same e (.here found)]
    refine and_congr_right fun hp => or_congr_right <| and_congr_right fun entity => ih ?_
    exact fun e' meets => same e' (.further found hp entity meets)

/-- Where more properties are offered, the same entities are met. -/
lemma Meets.mono (more : ∀ t e, c.table.get? t = some (some e) → ∀ p ∈ offers e, p ∈ offers' e)
    (meets : c.Meets offers t e) : c.Meets offers' t e := by
  induction meets with
  | here found => exact .here found
  | further found hp entity _ ih => exact .further found (more _ _ found _ hp) entity ih

/-- An entity that is met is known. -/
lemma Meets.found (meets : c.Meets offers t e) : ∃ u, c.table.get? u = some (some e) := by
  induction meets with
  | here found => exact ⟨_, found⟩
  | further _ _ _ _ ih => exact ih

namespace Sound

variable (sound : c.Sound m)

include sound

/-- An entity is known under its own type. -/
lemma type_eq (found : c.table.get? t = some (some e)) : e.type = t := by
  obtain ⟨decl, ps, populated, -, folded, rfl⟩ := Mapping.build_eq_ok.mp (sound.built t e found)
  rw [Mapping.finish_type, Entity.fold_type folded]
  rfl

/-- On routes through entities with distinct fields every property is offered, and once. -/
lemma offered_of_meets (distinct : ∀ e, c.Meets Entity.properties t e → m.HasDistinctFields e.type)
    (meets : c.Meets candidates t e) : (candidates e).Perm e.properties ∧ (candidates e).Nodup := by
  have more : c.Meets Entity.properties t e := meets.mono fun u e' found p hp =>
    Entity.mem_properties_of_candidates (Mapping.build_isListed (sound.built u e' found)) hp
  obtain ⟨u, found⟩ := meets.found
  have fields := distinct e more
  rw [sound.type_eq found] at fields
  obtain ⟨perm, names⟩ := Mapping.candidates_perm (sound.built u e found) fields
  exact ⟨perm, perm.nodup_iff.mpr (.of_map _ names)⟩

end Sound

/-! ### Searches from a type -/

/-- Sorted paths do not get shorter. -/
lemma pairwise_length_mergeSort (found : List EntityPath) :
    (found.mergeSort fun p q => decide (p.length ≤ q.length)).Pairwise fun p q =>
      p.length ≤ q.length := by
  have sorted : (found.mergeSort fun p q => decide (p.length ≤ q.length)).Pairwise fun p q =>
      decide (p.length ≤ q.length) = true :=
    List.pairwise_mergeSort (fun p q q' => by simpa using Nat.le_trans)
      (fun p q => by simpa using Nat.le_total _ _) found
  exact sorted.imp of_decide_eq_true

/-- The paths that are found are those of the search, sorted by their length. -/
lemma runOn_findPaths : (findPaths accepts t).runOn c = (c.pathsFrom accepts t {}).map fun o =>
    (o.1.map fun found => found.mergeSort fun p q => decide (p.length ≤ q.length), o.2) := by
  unfold findPaths
  rw [runOn_bind, Option.map_eq_bind]
  show (c.pathsFrom accepts t {}).bind _ = _
  congr 1
  funext ⟨r, c'⟩
  cases r <;> rfl

/-- A search from a type that gets to finitely many types has an outcome, also where types lead back
to each other. If it succeeds and no entity on the way has two fields of one name, it has found all
chains of properties that start at the entity of the type, get behind no type twice and end in an
accepted property, each of them once and none before a shorter one. -/
theorem findPaths_enumerates {ops : List Operation} (before : after ops (ofMapping m) = some c)
    (accepts : EntityProperty → Bool) (finite : {u | c.Reaches t u}.Finite) :
    ∃ r c', (findPaths accepts t).runOn c = some (r, c') ∧
      ∀ paths, r = .ok paths →
        (∀ e, c'.Meets Entity.properties t e → m.HasDistinctFields e.type) →
          paths.Nodup ∧ (paths.Pairwise fun path path' => path.length ≤ path'.length) ∧
            ∀ path, path ∈ paths ↔ c'.RouteFrom Entity.properties t path.properties ∧
              (path.properties.map (·.actual)).Nodup ∧ path.leaf?.any accepts = true := by
  have sound := Sound.of_after before
  obtain ⟨lookups, r, c', searches⟩ := exists_searches sound finite accepts {}
  have run := searches.run
  have evolves : c.Evolves false c' := searches.evolves
  refine ⟨_, c', by rw [runOn_findPaths, run]; rfl, fun paths hr distinct => ?_⟩
  obtain ⟨found, rfl, rfl⟩ := map_eq_ok.mp hr
  -- the search follows what entities offer, which is all of their properties under this condition
  have offered : ∀ e, c'.Meets candidates t e →
      (candidates e).Perm e.properties ∧ (candidates e).Nodup := fun e =>
    (sound.evolve evolves).offered_of_meets distinct
  have enumerates := searches.enumerates c' .refl found rfl
  have sorted := List.mergeSort_perm found fun p q => decide (p.length ≤ q.length)
  refine ⟨?_, ?_, fun path => ?_⟩
  · exact sorted.nodup_iff.mpr (enumerates.nodup fun e meets => (offered e meets).2)
  · exact pairwise_length_mergeSort found
  · rw [sorted.mem_iff, enumerates.mem_iff]
    have routes : c'.RouteFrom candidates t path.properties ↔
        c'.RouteFrom Entity.properties t path.properties :=
      routeFrom_congr fun e meets p => (offered e meets).1.mem_iff
    rw [← routes]
    constructor
    · rintro ⟨qs, extended, admits, route, accepted⟩
      rw [List.nil_append] at extended
      subst extended
      exact ⟨route, admits.distinct, accepted⟩
    · rintro ⟨route, distinct, accepted⟩
      exact ⟨path.properties, rfl, EntityPath.admits_empty.mpr distinct, route, accepted⟩

end Context

namespace Sample

/-! ### From readers to cards and back -/

def cardProperty : EntityProperty := property readerDecl ⟨"card", card, {}, []⟩

def readerProperty : EntityProperty := property cardDecl ⟨"reader", reader, {}, []⟩

/-- The types of the sample have no two fields of one name. -/
lemma lending_distinct (t : TypeRef) : lending.HasDistinctFields t := by
  unfold Mapping.HasDistinctFields
  rw [Catalog.chain]
  split
  · exact .nil
  · rename_i d found
    have declared : d ∈ [readerDecl, cardDecl] := List.mem_of_find?_eq_some found
    rcases List.mem_pair.mp declared with rfl | rfl <;> exact List.nodup_singleton _

/-- A reader offers its card. -/
lemma candidates_of_reader {n : Nat} {e : Entity} (h : lending.build n reader = .ok e) :
    candidates e = [cardProperty] := by
  rw [Mapping.build_of_outline outline_reader] at h
  cases h
  rfl

/-- A card offers its reader. -/
lemma candidates_of_card {n : Nat} {e : Entity} (h : lending.build n card = .ok e) :
    candidates e = [readerProperty] := by
  rw [Mapping.build_of_outline outline_card] at h
  cases h
  rfl

/-- A search gets to readers and cards only. -/
lemma lending_followed {c : Context} (mapping_eq : c.mapping = lending) {u : TypeRef}
    (reach : c.Reaches reader u) : u ∈ ({reader, card} : Set TypeRef) := by
  induction reach with
  | refl => exact .inl rfl
  | tail _ follows ih =>
    obtain ⟨-, decl, ps, outlined, p, hp, -, rfl⟩ := follows
    rw [mapping_eq] at outlined
    rcases ih with rfl | rfl
    · cases outline_reader.symm.trans outlined
      cases List.mem_singleton.mp hp
      exact .inr rfl
    · cases outline_card.symm.trans outlined
      cases List.mem_singleton.mp hp
      exact .inl rfl

/-- The search from readers goes on to cards and ends when it is back at readers. -/
lemma reader_searched {c : Context} {e₁ e₂ : Entity}
    (reader_known : c.table.get? reader = some (some e₁))
    (card_known : c.table.get? card = some (some e₂))
    (reader_offers : candidates e₁ = [cardProperty])
    (card_offers : candidates e₂ = [readerProperty]) :
    ∃ lookups, Context.Tries (fun _ => true) c (candidates e₁) {} lookups
      (.ok [⟨[cardProperty]⟩, ⟨[cardProperty, readerProperty]⟩]) c := by
  have known₁ : EntityLookup.Yields c (.entity reader) (.ok (some e₁)) c := .answered reader_known
  have known₂ : EntityLookup.Yields c (.entity card) (.ok (some e₂)) c := .answered card_known
  -- behind the second reader nothing is new
  have ended : Context.Tries (fun _ => true) c (candidates e₁) ⟨[cardProperty, readerProperty]⟩ []
      (.ok []) c := by
    rw [reader_offers]
    exact .passed rfl .nil
  have behind_reader : Context.Searches (fun _ => true) c reader ⟨[cardProperty, readerProperty]⟩
      [(reader, .ok (some e₁))] (.ok []) c := .through known₁.run ended
  have back : Context.Tries (fun _ => true) c (candidates e₂) ⟨[cardProperty]⟩
      [(reader, .ok (some e₁))] (.ok [⟨[cardProperty, readerProperty]⟩]) c := by
    rw [card_offers]
    exact .further (p := readerProperty) rfl rfl rfl behind_reader .nil
  have behind_card : Context.Searches (fun _ => true) c card ⟨[cardProperty]⟩
      [(card, .ok (some e₂)), (reader, .ok (some e₁))]
      (.ok [⟨[cardProperty, readerProperty]⟩]) c := .through known₂.run back
  rw [reader_offers]
  exact ⟨_, .further (p := cardProperty) rfl rfl rfl behind_card .nil⟩

end Sample

/-- Behind a reader there is the card and behind that its reader: these two paths are found, and no
others, though readers and cards lead to each other without end. -/
theorem Context.findPaths_reader : ∃ c',
    let paths : List EntityPath :=
      [⟨[Sample.cardProperty]⟩, ⟨[Sample.cardProperty, Sample.readerProperty]⟩]
    (findPaths (fun _ => true) Sample.reader).runOn (ofMapping Sample.lending) =
        some (.ok paths, c') ∧
      paths.Nodup ∧ (paths.Pairwise fun path path' => path.length ≤ path'.length) ∧
        ∀ path, path ∈ paths ↔ c'.RouteFrom Entity.properties Sample.reader path.properties ∧
          (path.properties.map (·.actual)).Nodup ∧ path.leaf?.any (fun _ => true) = true := by
  have nothing : ∀ t, (ofMapping Sample.lending).table.get? t = none := fun _ =>
    EntityTable.get?_empty
  obtain ⟨e₁, e₂, d, vis, reader_known, card_known⟩ :=
    Sample.reader_visited (d := (ofMapping Sample.lending).discovery)
      (EntityTable.contains_eq_false.mpr (nothing _))
      (EntityTable.contains_eq_false.mpr (nothing _))
  have first : EntityLookup.Yields (ofMapping Sample.lending) (.entity Sample.reader) _ _ :=
    .made (nothing _) rfl vis reader_known
  have built := (Sound.initial.visit vis).built
  obtain ⟨lookups, tries⟩ := Sample.reader_searched
    (c := (ofMapping Sample.lending).afterDiscovery d) reader_known card_known
    (Sample.candidates_of_reader (built _ e₁ reader_known))
    (Sample.candidates_of_card (built _ e₂ card_known))
  have searched : Searches (fun _ => true) (ofMapping Sample.lending) Sample.reader {} _ _ _ :=
    .through first.run tries
  have finite : {u | (ofMapping Sample.lending).Reaches Sample.reader u}.Finite :=
    (Set.toFinite {Sample.reader, Sample.card}).subset fun u => Sample.lending_followed rfl
  have before : after [] (ofMapping Sample.lending) = some (ofMapping Sample.lending) := rfl
  obtain ⟨r, c', run, enumerates⟩ := findPaths_enumerates before (fun _ => true) finite
  have same := runOn_findPaths.symm.trans run
  -- the shorter path was found first, so there is nothing to sort
  have sorted : ([⟨[Sample.cardProperty]⟩, ⟨[Sample.cardProperty, Sample.readerProperty]⟩] :
        List EntityPath).mergeSort (fun p q => decide (p.length ≤ q.length)) =
      [⟨[Sample.cardProperty]⟩, ⟨[Sample.cardProperty, Sample.readerProperty]⟩] :=
    List.mergeSort_of_pairwise (by simp [EntityPath.length])
  rw [searched.run, Option.map_some, Except.map, sorted] at same
  cases same
  exact ⟨_, run, enumerates _ rfl fun e _ => Sample.lending_distinct e.type⟩

end EntityModel
