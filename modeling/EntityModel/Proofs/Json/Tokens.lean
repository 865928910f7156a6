import EntityModel.Json.Node
import Mathlib.Tactic.Lemma

/-!
# Trees are read from their tokens

The tokens of a tree are those of its scalars, brackets and separators in order. The machine that
reads tokens rebuilds every tree from its tokens (`JsonNode.ofTokens?_tokens`): where a value may
start, the tokens of a tree take it to where the tree is handed to the innermost open container.
-/

namespace EntityModel.JsonNode

/-- The trees directly inside a tree. -/
def children : JsonNode → List JsonNode
  | null | bool _ | numeral _ | string _ => []
  | array items => items
  | object members => members.map (·.2)

/-- The children of a tree are smaller than it. -/
lemma sizeOf_lt_of_mem_children {m n : JsonNode} (h : m ∈ n.children) : sizeOf m < sizeOf n := by
  cases n with
  | null | bool | numeral | string => cases h
  | array items =>
    have smaller : sizeOf m < sizeOf items := List.sizeOf_lt_of_mem h
    simp only [array.sizeOf_spec]
    omega
  | object members =>
    obtain ⟨⟨k, x⟩, hm, rfl⟩ := List.mem_map.mp h
    have smaller := List.sizeOf_lt_of_mem hm
    simp only [object.sizeOf_spec, Prod.mk.sizeOf_spec] at smaller ⊢
    omega

/-- Induction on the depth of a tree. -/
@[elab_as_elim]
theorem descend {P : JsonNode → Prop} (step : ∀ n : JsonNode, (∀ m ∈ n.children, P m) → P n)
    (n : JsonNode) : P n :=
  step n fun m _ => descend step m
termination_by sizeOf n
decreasing_by exact sizeOf_lt_of_mem_children ‹_›

mutual

/-- The tokens of a tree. -/
def tokens : JsonNode → List JsonToken
  | null => [.null]
  | bool b => [.bool b]
  | numeral x => [.numeral x]
  | string content => [.string content]
  | array items => .beginArray :: itemTokens items ++ [.endArray]
  | object members => .beginObject :: memberTokens members ++ [.endObject]

/-- The tokens of the items of an array. -/
def itemTokens : List JsonNode → List JsonToken
  | [] => []
  | [n] => tokens n
  | n :: rest => tokens n ++ .comma :: itemTokens rest

/-- The tokens of the members of an object. -/
def memberTokens : List (Option String × JsonNode) → List JsonToken
  | [] => []
  | [(name, n)] => .string name :: .colon :: tokens n
  | (name, n) :: rest => .string name :: .colon :: tokens n ++ .comma :: memberTokens rest

end

namespace Machine

/-- A machine runs on tokens in two parts. -/
lemma run_append (m : Machine) (ts us : List JsonToken) :
    m.run (ts ++ us) = (m.run ts).bind (·.run us) := by
  induction ts generalizing m with
  | nil => rfl
  | cons t ts ih =>
    rw [List.cons_append, run, run]
    cases m.step t with
    | none => rfl
    | some m => exact ih m

/-- Where the first item may be missing, a tree that is there is read as anywhere else. -/
lemma run_item (n : JsonNode) (stack : List Frame) :
    run ⟨.item, stack⟩ n.tokens = run ⟨.value, stack⟩ n.tokens := by
  cases n with
  | null | bool | numeral | string | array | object =>
    rcases stack with _ | ⟨_ | _, _⟩ <;> rfl

/-- The machine reads a tree where a value starts: its tokens hand it to the innermost open
container. -/
def ReadsValue (n : JsonNode) : Prop :=
  ∀ stack, run ⟨.value, stack⟩ n.tokens = some (deliver n stack)

/-- The machine reads the items of an array one by one, where each of them is read. -/
lemma run_itemTokens {n : JsonNode} {ns : List JsonNode} (h : ∀ m ∈ n :: ns, ReadsValue m)
    (done : List JsonNode) (stack : List Frame) :
    run ⟨.value, .array done :: stack⟩ (itemTokens (n :: ns)) =
      some ⟨.separator, .array ((n :: ns).reverse ++ done) :: stack⟩ := by
  induction ns generalizing n done with
  | nil => exact h n List.mem_cons_self (.array done :: stack)
  | cons m ns ih =>
    obtain ⟨first, others⟩ := List.forall_mem_cons.mp h
    rw [itemTokens, run_append, first]
    · show run ⟨.value, .array (n :: done) :: stack⟩ (itemTokens (m :: ns)) = _
      rw [ih others, List.reverse_cons (a := n), List.append_assoc, List.singleton_append]
    · exact List.cons_ne_nil m ns

/-- The machine reads the members of an object one by one, where the value of each is read. -/
lemma run_memberTokens {m : Option String × JsonNode} {ms : List (Option String × JsonNode)}
    (h : ∀ x ∈ m :: ms, ReadsValue x.2) (done : List (Option String × JsonNode))
    (name : Option String) (stack : List Frame) :
    run ⟨.name, .object done name :: stack⟩ (memberTokens (m :: ms)) =
      some ⟨.separator, .object ((m :: ms).reverse ++ done) none :: stack⟩ := by
  induction ms generalizing m done name with
  | nil => exact h m List.mem_cons_self (.object done m.1 :: stack)
  | cons m' ms ih =>
    obtain ⟨first, others⟩ := List.forall_mem_cons.mp h
    rw [memberTokens]
    · show run ⟨.value, .object done m.1 :: stack⟩ (m.2.tokens ++ _) = _
      rw [run_append, first]
      show run ⟨.name, .object (m :: done) none :: stack⟩ (memberTokens (m' :: ms)) = _
      rw [ih others, List.reverse_cons (a := m), List.append_assoc, List.singleton_append]
    · exact List.cons_ne_nil m' ms

/-- The machine reads every tree. -/
theorem readsValue (n : JsonNode) : ReadsValue n := by
  induction n using descend with
  | step n ih =>
    intro stack
    cases n with
    | null | bool | numeral | string => rfl
    | array items =>
      cases items with
      | nil => rfl
      | cons n ns =>
        -- behind the opening bracket the array could also end, but an element begins
        show run ⟨.item, .array [] :: stack⟩ (itemTokens (n :: ns) ++ [.endArray]) = _
        have started : run ⟨.item, .array [] :: stack⟩ (itemTokens (n :: ns)) =
            run ⟨.value, .array [] :: stack⟩ (itemTokens (n :: ns)) := by
          cases ns with
          | nil => exact run_item n _
          | cons m ns => rw [itemTokens, run_append, run_append, run_item]; exact nofun
        rw [run_append, started, run_itemTokens ih]
        show some (deliver (.array ((n :: ns).reverse ++ []).reverse) stack) = _
        rw [List.append_nil, List.reverse_reverse]
    | object members =>
      cases members with
      | nil => rfl
      | cons m ms =>
        -- behind the opening brace the object could also end, but a member begins
        show run ⟨.member, .object [] none :: stack⟩ (memberTokens (m :: ms) ++ [.endObject]) = _
        have started : run ⟨.member, .object [] none :: stack⟩ (memberTokens (m :: ms)) =
            run ⟨.name, .object [] none :: stack⟩ (memberTokens (m :: ms)) := by
          cases ms <;> rfl
        rw [run_append, started, run_memberTokens (List.forall_mem_map.mp ih)]
        show some (deliver (.object ((m :: ms).reverse ++ []).reverse) stack) = _
        rw [List.append_nil, List.reverse_reverse]

end Machine

/-- Every tree is read from its tokens. -/
theorem ofTokens?_tokens (n : JsonNode) : ofTokens? n.tokens = some n := by
  rw [ofTokens?, Machine.start, Machine.readsValue, Machine.deliver]

end EntityModel.JsonNode
