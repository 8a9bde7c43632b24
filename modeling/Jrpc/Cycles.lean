-- A value that contains itself. References of a finite store that go on and on come back to
-- a node that they have passed, so a value that cannot be read is one that contains itself.
import Jrpc.Chain
import Jrpc.JsonStore

open heap chain

namespace jrpc.json

/-! ## Values that contain themselves -/

/-- A node holds a reference to another one. -/
def Refers (s : JsonStore) (a b : Nat) : Prop := .node b ∈ s.childrenAt a

/-- Below the value there is a node that can be reached from itself. -/
def ContainsItself (s : JsonStore) : JsonRef → Prop
  | .node a => ∃ b, Relation.ReflTransGen (Refers s) a b ∧ Relation.TransGen (Refers s) b b
  | _ => False

theorem mapM_none_iff {α β : Type} {f : α → Option β} {l : List α} :
    l.mapM f = none ↔ ∃ x ∈ l, f x = none := by
  induction l with
  | nil => simp
  | cons x l ih =>
    rw [List.mapM_cons]
    rcases hx : f x with _ | y
    · simp [hx]
    · rcases hl : l.mapM f with _ | ys
      · simpa [hx] using ih.mp hl
      · simpa [hx, hl] using ih

/-- A node is read by its children. -/
theorem readFuel_node_none {s : JsonStore} {n a : Nat} {c : JsonCell}
    (hc : s.nodes.cells a = some c) :
    s.readFuel (n + 1) (.node a) = none ↔ ∃ r ∈ s.childrenAt a, s.readFuel n r = none := by
  obtain ⟨k, node⟩ := c
  rw [readFuel_node, hc]
  unfold JsonStore.childrenAt
  rw [hc]
  cases node with
  | array rs => simp [JsonNode.children, mapM_none_iff]
  | object ms =>
    simp only [Option.map_eq_none_iff, mapM_none_iff, JsonNode.children, List.mem_map]
    constructor
    · rintro ⟨m, hm, hnone⟩
      exact ⟨m.2, ⟨m, hm, rfl⟩, hnone⟩
    · rintro ⟨_, ⟨m, hm, rfl⟩, hnone⟩
      exact ⟨m, hm, hnone⟩
  | _ => simp [JsonNode.children]

/-- A value that is not read with this much fuel has a path of this length below it. -/
theorem path_of_none {s : JsonStore} (hs : s.Closed) {n a : Nat} (ha : s.nodes.Live a)
    (h : s.readFuel n (.node a) = none) :
    ∃ l, l.length = n ∧ (a :: l).IsChain (Refers s) ∧ ∀ b ∈ a :: l, b < s.nodes.next := by
  induction n generalizing a with
  | zero =>
    obtain ⟨c, hc⟩ := Arena.live_iff.mp ha
    refine ⟨[], rfl, List.IsChain.singleton a, ?_⟩
    intro b hb
    rw [List.mem_singleton.mp hb]
    exact Arena.lt_next_of_cell hc
  | succ n ih =>
    obtain ⟨c, hc⟩ := Arena.live_iff.mp ha
    have hlt := Arena.lt_next_of_cell hc
    obtain ⟨r, hr, hnone⟩ := (readFuel_node_none hc).mp h
    cases r with
    | node b =>
      obtain ⟨l, hlen, hchain, hbelow⟩ := ih (hs a hlt _ hr) hnone
      refine ⟨b :: l, by simp [hlen], List.IsChain.cons_cons hr hchain, ?_⟩
      intro x hx
      rcases List.mem_cons.mp hx with rfl | hx
      · exact hlt
      · exact hbelow x hx
    | _ => simp at hnone

/-- What refers to a node on a cycle is not read with any fuel. -/
theorem none_of_cycle {s : JsonStore} {a b : Nat} (hab : Relation.ReflTransGen (Refers s) a b)
    (hb : Relation.TransGen (Refers s) b b) (n : Nat) : s.readFuel n (.node a) = none := by
  induction n generalizing a with
  | zero => rfl
  | succ n ih =>
    rcases hc : s.nodes.cells a with _ | c
    · rw [readFuel_node, hc]
    · -- one of the references goes on towards the cycle
      obtain ⟨x, hax, hxb⟩ : ∃ x, Refers s a x ∧ Relation.ReflTransGen (Refers s) x b := by
        apply Relation.TransGen.head'_iff.mp
        rcases Relation.reflTransGen_iff_eq_or_transGen.mp hab with rfl | hab
        · exact hb
        · exact hab
      apply (readFuel_node_none hc).mpr
      exact ⟨.node x, hax, ih hxb⟩

/-- A value has no finite reading just when it contains itself. -/
theorem read_none_iff {s : JsonStore} (hs : s.Closed) {r : JsonRef} (hr : s.Live r) :
    s.read r = none ↔ ContainsItself s r := by
  unfold JsonStore.read
  cases r with
  | node a =>
    constructor
    · intro h
      obtain ⟨l, hlen, hchain, hbelow⟩ := path_of_none hs hr h
      have hlong : s.nodes.next < (a :: l).length := by
        rw [List.length_cons, hlen]
        omega
      obtain ⟨b, hb, hcycle⟩ := exists_cycle hchain hbelow hlong
      exact ⟨b, reaches hchain hb, hcycle⟩
    · rintro ⟨b, hab, hb⟩
      exact none_of_cycle hab hb _
  | _ => simp [ContainsItself]

end jrpc.json
