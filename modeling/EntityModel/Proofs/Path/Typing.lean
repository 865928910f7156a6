import EntityModel.Proofs.Path.Greedy

/-!
# Paths are well typed

A path that a source is resolved to starts at the given type, each of its segments is a property of
the type that it belongs to, and each but the first one belongs to the type behind the one before it
(`Path.wellTyped_of_resolve`). The nodes that can be reached from a path are just the ends of its
list of segments (`PropertyPath.reaches_iff`).
-/

namespace EntityModel

variable {c : Catalog} {owner last reached next : TypeRef} {s : Segment}
  {segments more : List Segment}

/-! ### Chains of properties -/

/-- Segments lead from a type to another one: each is a property of the type reached before it. -/
inductive Leads (c : Catalog) : TypeRef → List Segment → TypeRef → Prop
  | nil {owner : TypeRef} : Leads c owner [] owner
  | cons {owner last : TypeRef} {s : Segment} {segments : List Segment} :
      s.owner = owner → c.propertyType? owner s.name = some s.type →
      Leads c s.actual segments last → Leads c owner (s :: segments) last

namespace Leads

/-- Segments that start where others end go on from there. -/
lemma append (h : Leads c owner segments next) (h' : Leads c next more last) :
    Leads c owner (segments ++ more) last := by
  induction h with
  | nil => exact h'
  | cons owner_eq type_eq _ ih => exact .cons owner_eq type_eq (ih h')

/-- The segments behind any others lead to where all of them lead. -/
lemma drop (h : Leads c owner segments last) (n : Nat) :
    ∃ next, Leads c next (segments.drop n) last := by
  induction h generalizing n with
  | nil =>
    rw [List.drop_nil]
    exact ⟨_, .nil⟩
  | cons owner_eq type_eq more ih =>
    cases n with
    | zero => exact ⟨_, .cons owner_eq type_eq more⟩
    | succ n => exact ih n

/-- Every segment names a property that its owner has, with its type. -/
lemma declared (h : Leads c owner segments last) :
    ∀ s ∈ segments, c.propertyType? s.owner s.name = some s.type := by
  induction h with
  | nil => exact fun s h => absurd h List.not_mem_nil
  | cons owner_eq type_eq _ ih => exact List.forall_mem_cons.mpr ⟨owner_eq ▸ type_eq, ih⟩

/-- Every segment starts at the type that the one before it leads to. -/
lemma linked (h : Leads c owner segments last) :
    segments.IsChain fun s next => next.owner = s.actual := by
  induction h with
  | nil => exact .nil
  | cons _ _ more ih =>
    cases more with
    | nil => exact .singleton _
    | cons owner_eq _ _ => exact .cons_cons owner_eq ih

end Leads

namespace Path

/-- The segments of a reading lead to its type. -/
lemma Reads.leads {text left : List Char} {choices : List Choice}
    (h : Reads c owner text choices last left) : Leads c owner (choices.map (·.segment)) last := by
  induction h with
  | stop => exact .nil
  | @choose owner last head rest left s choices _ takes _ ih =>
    have type_eq : c.propertyType? owner s.name = some s.type := by
      rw [takes.spells.name_eq]
      exact takes.spells.type_eq
    exact .cons takes.spells.owner_eq type_eq ih

/-- The segments of all parts lead to the type that is read last. -/
lemma ReadsParts.leads {ps : List (List Char)} {readings : List (List Choice)}
    (h : ReadsParts c owner ps readings last) :
    Leads c owner (readings.flatten.map (·.segment)) last := by
  induction h with
  | nil => exact .nil
  | cons reads _ ih =>
    rw [List.flatten_cons, List.map_append]
    exact reads.leads.append ih

end Path

/-! ### Nodes of a path -/

namespace PropertyPath

variable {p q r : PropertyPath}

/-- A node can be reached from another one by going on to the next node, to the leaf or to any node
that is listed, and so on from there. -/
inductive Reaches (p : PropertyPath) : PropertyPath → Prop
  | refl : Reaches p p
  | next {q r : PropertyPath} : Reaches p q → q.next? = some r → Reaches p r
  | leaf {q : PropertyPath} : Reaches p q → Reaches p q.leaf
  | node {q r : PropertyPath} : Reaches p q → r ∈ q.nodes → Reaches p r

/-- A node is an end of the segments of another one. -/
def IsNodeOf (q p : PropertyPath) : Prop :=
  ∃ i < p.length, q.segments = p.segments.drop i

/-- A path is a node of itself. -/
lemma IsNodeOf.refl : p.IsNodeOf p :=
  ⟨0, Nat.succ_pos _, rfl⟩

/-- The nodes of a node are nodes. -/
lemma IsNodeOf.trans (h : r.IsNodeOf q) (h' : q.IsNodeOf p) : r.IsNodeOf p := by
  obtain ⟨i, hi, hr⟩ := h
  obtain ⟨j, hj, hq⟩ := h'
  have length_eq : q.length = p.length - j := by
    rw [length, hq, List.length_drop, ← length]
  refine ⟨j + i, by omega, ?_⟩
  rw [hr, hq, List.drop_drop]

/-- Segments make up the path that has just these segments. -/
lemma ofSegments?_eq_some_iff : ofSegments? segments = some q ↔ segments = q.segments := by
  cases segments with
  | nil => exact iff_of_false (by intro h; cases h) (by intro h; cases h)
  | cons s segments =>
    constructor
    · intro h
      cases h
      rfl
    · intro h
      exact congrArg some (eq_of_segments (p := ⟨s, segments⟩) h)

/-- The next node is a node. -/
lemma isNodeOf_of_next? (h : q.next? = some r) : r.IsNodeOf q := by
  have tail_eq : q.tail = r.segments := ofSegments?_eq_some_iff.mp h
  refine ⟨1, ?_, tail_eq.symm⟩
  rw [length, segments, tail_eq]
  exact Nat.succ_lt_succ (Nat.succ_pos _)

/-- The leaf is a node. -/
lemma isNodeOf_leaf : q.leaf.IsNodeOf q := by
  refine ⟨q.tail.length, Nat.lt_succ_self _, ?_⟩
  obtain ⟨head, tail⟩ := q
  induction tail generalizing head with
  | nil => rfl
  | cons s tail ih =>
    have same : (⟨head, s :: tail⟩ : PropertyPath).leaf = (⟨s, tail⟩ : PropertyPath).leaf := by
      rw [leaf, leafSegment, List.getLastD_cons]
      rfl
    rw [same]
    exact ih s

/-- The nodes behind the head are the ends of the tail. -/
lemma mem_nodes_go_iff (tail : List Segment) :
    q ∈ nodes.go tail ↔ ∃ i < tail.length, q.segments = tail.drop i := by
  induction tail with
  | nil => simp [nodes.go]
  | cons s tail ih =>
    rw [nodes.go, List.mem_cons, ih]
    constructor
    · rintro (rfl | ⟨i, hi, hq⟩)
      · exact ⟨0, Nat.succ_pos _, rfl⟩
      · exact ⟨i + 1, Nat.succ_lt_succ hi, hq⟩
    · rintro ⟨_ | i, hi, hq⟩
      · exact .inl (eq_of_segments hq)
      · exact .inr ⟨i, Nat.lt_of_succ_lt_succ hi, hq⟩

/-- The nodes of a path are listed by its iteration, all of them. -/
lemma mem_nodes_iff : q ∈ p.nodes ↔ q.IsNodeOf p :=
  mem_nodes_go_iff p.segments

/-- Every node that can be reached has its place in the list of segments, and every place is that of
a node that can be reached. -/
theorem reaches_iff : p.Reaches q ↔ q.IsNodeOf p := by
  constructor
  · intro h
    induction h with
    | refl => exact .refl
    | next _ h ih => exact (isNodeOf_of_next? h).trans ih
    | leaf _ ih => exact isNodeOf_leaf.trans ih
    | node _ h ih => exact (mem_nodes_iff.mp h).trans ih
  · exact fun h => .node .refl (mem_nodes_iff.mpr h)

/-! ### Paths from a type -/

/-- A path leads from a type through properties of the types on the way. What is behind a property,
and whether that is a collection, is a matter of its declared type. -/
structure WellTyped (c : Catalog) (owner : TypeRef) (p : PropertyPath) : Prop where
  starts : p.head.owner = owner
  declared : ∀ s ∈ p.segments, c.propertyType? s.owner s.name = some s.type
  kinds : ∀ s ∈ p.segments,
    s.actual = s.type.actual ∧ s.isCollection = s.type.isCollectionLike
  linked : p.segments.IsChain fun s next => next.owner = s.actual

/-- Segments that lead from a type make up a well-typed path. -/
lemma WellTyped.of_leads (h : Leads c owner p.segments last) : p.WellTyped c owner where
  starts := by
    cases h with
    | cons owner_eq _ _ => exact owner_eq
  declared := h.declared
  kinds _ _ := ⟨rfl, rfl⟩
  linked := h.linked

end PropertyPath

/-- Every path that a source is resolved to is well-typed. -/
theorem Path.wellTyped_of_resolve {source : String} {p : PropertyPath}
    (h : Path.resolve c source owner = .ok p) : p.WellTyped c owner := by
  have outcome := Path.resolve_outcome c source owner
  rw [h] at outcome
  obtain ⟨readings, last, reads, segments⟩ := outcome.reads
  have leads := reads.leads
  rw [← segments] at leads
  exact .of_leads leads

end EntityModel
