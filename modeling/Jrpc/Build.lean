-- How an outgoing object is built: a new object, and then its members one after another.
-- Each call of the JSON library may fail, and then the member is left out. What user code
-- handed over lies below the new object in the store, so whatever becomes of it, the object
-- and its own members stay as they are.
import Jrpc.JsonStore
import Jrpc.Connection

open heap
open jrpc.json

namespace jrpc.connection

/-! ## A fence in the store -/

/-- No node below the fence refers to a node at or above it. -/
def Fenced (a : Nat) (s : JsonStore) : Prop :=
  ∀ b < a, ∀ x, .node x ∈ s.childrenAt b → x < a

theorem Fenced.congr {a : Nat} {s t : JsonStore} (h : Fenced a s)
    (hsame : ∀ b < a, t.nodes.cells b = s.nodes.cells b) : Fenced a t := by
  intro b hb x hx
  unfold JsonStore.childrenAt at hx
  rw [hsame b hb] at hx
  exact h b hb x hx

/-- A closed store has a fence above all its nodes. -/
theorem fenced_of_closed {s : JsonStore} (h : s.Closed) : Fenced s.nodes.next s := by
  intro b hb x hx
  have hlive : s.nodes.Live x := h b hb _ hx
  obtain ⟨c, hc⟩ := Arena.live_iff.mp hlive
  exact Arena.lt_next_of_cell hc

/-- A reference to a node below the fence, or to a constant. -/
def Below (a : Nat) (r : JsonRef) : Prop := ∀ x, r = .node x → x < a

/-- One turn of `decrefFuel` changes one node, and adds references that it held. -/
theorem decrefFuel_below {a : Nat} (fuel : Nat) {rs : List JsonRef} {s : JsonStore}
    (hrs : ∀ r ∈ rs, Below a r) (hs : Fenced a s) :
    (∀ b, a ≤ b → (decrefFuel fuel rs s).nodes.cells b = s.nodes.cells b) ∧
      Fenced a (decrefFuel fuel rs s) := by
  induction fuel generalizing rs s with
  | zero => exact ⟨fun _ _ => rfl, hs⟩
  | succ fuel ih =>
    rcases rs with _ | ⟨r, rest⟩
    · exact ⟨fun _ _ => rfl, hs⟩
    · have hrest : ∀ r ∈ rest, Below a r := fun r hr => hrs r (List.mem_cons_of_mem _ hr)
      cases r with
      | node x =>
        have hx : x < a := hrs _ List.mem_cons_self x rfl
        unfold decrefFuel
        rcases hc : s.nodes.cells x with _ | c
        · exact ih hrest hs
        · dsimp only
          split
          · -- the node is gone, and its own references come first now
            have hchildren : ∀ r ∈ c.node.children ++ rest, Below a r := by
              intro r hr
              rcases List.mem_append.mp hr with hr | hr
              · rintro y rfl
                apply hs x hx y
                unfold JsonStore.childrenAt
                rw [hc]
                exact hr
              · exact hrest r hr
            have hfenced : Fenced a { s with nodes := s.nodes.free x } := by
              intro b hb y hy
              by_cases hbx : b = x
              · subst b
                simp [JsonStore.childrenAt] at hy
              · apply hs b hb y
                simpa [JsonStore.childrenAt, Arena.free_cells_ne hbx] using hy
            obtain ⟨hcells, hf⟩ := ih hchildren hfenced
            refine ⟨fun b hb => (hcells b hb).trans ?_, hf⟩
            exact Arena.free_cells_ne (by omega)
          · have hfenced : Fenced a
                { s with nodes :=
                    s.nodes.modify x fun c => { c with refcount := c.refcount - 1 } } := by
              intro b hb y hy
              by_cases hbx : b = x
              · subst b
                apply hs x hx y
                simpa [JsonStore.childrenAt, hc] using hy
              · apply hs b hb y
                simpa [JsonStore.childrenAt, Arena.modify_cells_ne hbx] using hy
            obtain ⟨hcells, hf⟩ := ih hrest hfenced
            refine ⟨fun b hb => (hcells b hb).trans ?_, hf⟩
            exact Arena.modify_cells_ne (by omega)
      | _ => exact ih hrest hs

/-- A value below the fence that is given up takes nothing along from above it. -/
theorem json_decref_below {a : Nat} {v : JsonRef} {s : JsonStore} (hv : Below a v)
    (hs : Fenced a s) :
    (∀ b, a ≤ b → (json_decref (some v) s).nodes.cells b = s.nodes.cells b) ∧
      Fenced a (json_decref (some v) s) :=
  decrefFuel_below _ (by simpa using hv) hs

/-- A node with one reference that holds none is all that is given up with it. -/
theorem json_decref_leaf {s : JsonStore} {x : Nat} {node : JsonNode}
    (hx : s.nodes.cells x = some ⟨1, node⟩) (hnode : node.children = []) :
    json_decref (some (.node x)) s = { s with nodes := s.nodes.free x } := by
  unfold json_decref
  simp only [decrefFuel, hx, hnode, Nat.le_refl, if_true, List.nil_append, decrefFuel_nil]

/-- A new leaf that is given up again. -/
theorem json_decref_new {s : JsonStore} {node : JsonNode} (hnode : node.children = []) :
    json_decref (some (s.new node).2) (s.new node).1 = s := by
  rw [new_ref, json_decref_leaf (new_cells_self s node) hnode]
  refine store_ext (fun b => ?_) rfl
  by_cases hb : b = s.nodes.next
  · subst b
    rw [s.nodes.bounded _ (Nat.le_refl _)]
    exact Arena.free_cells_self _ _
  · exact (Arena.free_cells_ne hb).trans (new_cells_ne hb)

/-! ## Members -/

/-- What becomes a member: a new node with no references in it, or a value that user code
gave. -/
inductive Part
  | leaf (fails : Bool) (node : JsonNode)
  | given (value : Option JsonRef)

/-- A member is made and inserted. -/
def addPart (fails : Bool) (object : Option JsonRef) (key : String) :
    Part → JsonStore → JsonStore
  | .leaf lost node, s =>
    if lost then s
    else json_object_set_new fails object key (some (s.new node).2) (s.new node).1
  | .given value, s => json_object_set_new fails object key value s

/-- An object with two members, as all functions that build a message make it. -/
def buildPair (oom0 oom1 oom2 : Bool) (key1 : String) (part1 : Part) (key2 : String)
    (part2 : Part) (s : JsonStore) : JsonStore × Option JsonRef :=
  let (s, object) := json_object oom0 s
  (addPart oom2 object key2 part2 (addPart oom1 object key1 part1 s), object)

theorem responseObject_eq (oom : Nat → Bool) (result : Option JsonRef) (id : Int32)
    (s : JsonStore) :
    responseObject oom result id s =
      buildPair (oom 0) (oom 1) (oom 3) "result" (.given result) "id"
        (.leaf (oom 2) (.integer id.toInt64)) s := by
  unfold responseObject buildPair addPart json_integer
  rcases oom 2 with _ | _ <;> rfl

theorem notificationObject_eq (lib : JsonLib) (oom : Nat → Bool) (method : Bytes)
    (params : Option JsonRef) (s : JsonStore) :
    notificationObject lib oom method params s =
      buildPair (oom 0) (oom 2) (oom 3) "method"
        (.leaf (oom 1 || !lib.utf8 method) (.string method)) "params" (.given params) s := by
  unfold notificationObject buildPair addPart json_string
  rcases (oom 1 || !lib.utf8 method) with _ | _ <;> rfl

/-- The inner object of an error, with its store. -/
def errorHolder (lib : JsonLib) (oom : Nat → Bool) (error_code : Int32) (error_message : Bytes)
    (s : JsonStore) : JsonStore × Option JsonRef :=
  buildPair (oom 0) (oom 2) (oom 4) "code" (.leaf (oom 1) (.integer error_code.toInt64))
    "message" (.leaf (oom 3 || !lib.utf8 error_message) (.string error_message)) s

theorem errorObject_eq (lib : JsonLib) (oom : Nat → Bool) (error_code : Int32)
    (error_message : Bytes) (id : Int32) (s : JsonStore) :
    errorObject lib oom error_code error_message id s =
      buildPair (oom 5) (oom 6) (oom 8) "error"
        (.given (errorHolder lib oom error_code error_message s).2) "id"
        (.leaf (oom 7) (.integer id.toInt64))
        (errorHolder lib oom error_code error_message s).1 := by
  unfold errorObject errorHolder buildPair addPart json_integer json_string
  rcases oom 1 with _ | _ <;> rcases (oom 3 || !lib.utf8 error_message) with _ | _ <;>
    rcases oom 7 with _ | _ <;> rfl

/-! ## An object that is being built -/

/-- The value of a node that holds no references. -/
def scalar : JsonNode → Option Json
  | .integer i => some (.integer i)
  | .real b => some (.real b)
  | .string t => some (.string t)
  | _ => none

theorem children_of_scalar {node : JsonNode} {v : Json} (h : scalar node = some v) :
    node.children = [] := by
  cases node <;> first | rfl | cases h

/-- The member will be there, if it can be inserted. -/
def Part.made : Part → Bool
  | .leaf fails _ => !fails
  | .given value => value.isSome

/-- A new node holds no references, and a given value is older than the object. -/
def Part.Fits (a : Nat) : Part → Prop
  | .leaf _ node => ∃ v, scalar node = some v
  | .given value => ∀ r, value = some r → Below a r

/-- The reference that the member holds. -/
def Part.Is (a : Nat) (s : JsonStore) (r : JsonRef) : Part → Prop
  | .leaf _ node => ∃ x, a < x ∧ r = .node x ∧ s.nodes.cells x = some ⟨1, node⟩
  | .given value => value = some r

/-- Below the object nothing is lost unless a given value cannot be inserted. -/
def Part.Kept (inserted : Bool) : Part → Prop
  | .leaf _ _ => True
  | .given value => value.isSome → inserted = true

/-- A new object with its members. The nodes after it are scalars of its own. -/
structure Under (a : Nat) (ms : List (String × JsonRef)) (s : JsonStore) : Prop where
  cell : s.nodes.cells a = some ⟨1, .object ms⟩
  fenced : Fenced a s
  scalars : ∀ b, a < b → s.childrenAt b = []
  members : ∀ m ∈ ms, ∀ x, m.2 = .node x → x < a ∨ s.nodes.Live x

/-- The object and all above it stay as they are. -/
theorem Under.congr {a : Nat} {ms : List (String × JsonRef)} {s t : JsonStore}
    (h : Under a ms s) (hsame : ∀ b, a ≤ b → t.nodes.cells b = s.nodes.cells b)
    (hf : Fenced a t) : Under a ms t where
  cell := (hsame a (Nat.le_refl a)).trans h.cell
  fenced := hf
  scalars b hb := by
    have hs := h.scalars b hb
    unfold JsonStore.childrenAt at hs ⊢
    rwa [hsame b (Nat.le_of_lt hb)]
  members m hm x hx := by
    by_cases hxa : x < a
    · exact .inl hxa
    · right
      have hl := (h.members m hm x hx).resolve_left hxa
      unfold Arena.Live at hl ⊢
      rwa [hsame x (Nat.le_of_not_lt hxa)]

/-- No node refers to one that is not there yet. -/
theorem Under.fenced_next {a : Nat} {ms : List (String × JsonRef)} {s : JsonStore}
    (h : Under a ms s) : Fenced s.nodes.next s := by
  have ha := Arena.lt_next_of_cell h.cell
  intro b hb x hx
  rcases Nat.lt_trichotomy b a with hlt | rfl | hgt
  · exact Nat.lt_trans (h.fenced b hlt x hx) ha
  · unfold JsonStore.childrenAt at hx
    rw [h.cell] at hx
    obtain ⟨m, hm, he⟩ := List.mem_map.mp hx
    rcases h.members m hm x he with hlt | hl
    · exact Nat.lt_trans hlt ha
    · obtain ⟨c, hc⟩ := Arena.live_iff.mp hl
      exact Arena.lt_next_of_cell hc
  · rw [h.scalars b hgt] at hx
    cases hx

theorem under_new {s : JsonStore} (hs : Fenced s.nodes.next s) :
    Under s.nodes.next [] (s.new (.object [])).1 where
  cell := new_cells_self s _
  fenced := hs.congr (fun b hb => new_cells_ne (Nat.ne_of_lt hb))
  scalars b hb := by
    unfold JsonStore.childrenAt
    rw [new_cells_ne (Nat.ne_of_gt hb), s.nodes.bounded b (Nat.le_of_lt hb)]
  members m hm := by cases hm

/-- A member with a new key goes to the end of the object. -/
theorem object_set_new_inserts {s : JsonStore} {a n : Nat} {ms : List (String × JsonRef)}
    (h : s.nodes.cells a = some ⟨n, .object ms⟩) {key : String} {v : JsonRef}
    (hkey : ms.lookup key = none) (hv : v ≠ .node a) :
    json_object_set_new false (some (.node a)) key (some v) s =
      { s with nodes :=
          s.nodes.modify a fun c => { c with node := .object (ms ++ [(key, v)]) } } := by
  unfold json_object_set_new
  simp only [h, hv, Bool.false_eq_true, or_self, if_false, setMember, hkey, Option.isSome_none]
  rfl

/-- A value is put into the object as a new member. -/
theorem Under.insert {a : Nat} {ms : List (String × JsonRef)} {s : JsonStore}
    (h : Under a ms s) {key : String} {v : JsonRef} (hkey : ms.lookup key = none)
    (hv : v ≠ .node a) (hlive : ∀ x, v = .node x → x < a ∨ s.nodes.Live x) :
    Under a (ms ++ [(key, v)]) (json_object_set_new false (some (.node a)) key (some v) s) ∧
      ∀ b, b ≠ a →
        (json_object_set_new false (some (.node a)) key (some v) s).nodes.cells b =
          s.nodes.cells b := by
  rw [object_set_new_inserts h.cell hkey hv]
  have hother : ∀ b, b ≠ a → (s.nodes.modify a fun c =>
      { c with node := .object (ms ++ [(key, v)]) }).cells b = s.nodes.cells b :=
    fun b hb => Arena.modify_cells_ne hb
  have hself : (s.nodes.modify a fun c => { c with node := .object (ms ++ [(key, v)]) }).cells a =
      some ⟨1, .object (ms ++ [(key, v)])⟩ := by
    rw [Pool.modify_toArena, Arena.modify_cells_self, h.cell]
    rfl
  refine ⟨⟨hself, h.fenced.congr (fun b hb => hother b (Nat.ne_of_lt hb)), fun b hb => ?_,
    fun m hm x hx => ?_⟩, hother⟩
  · have hs := h.scalars b hb
    unfold JsonStore.childrenAt at hs ⊢
    rw [hother b (Nat.ne_of_gt hb)]
    exact hs
  · have hl : x < a ∨ s.nodes.Live x := by
      rcases List.mem_append.mp hm with hm | hm
      · exact h.members m hm x hx
      · rw [List.mem_singleton.mp hm] at hx
        exact hlive x hx
    refine hl.imp_right fun hl => ?_
    unfold Arena.Live at hl ⊢
    by_cases hxa : x = a
    · subst x
      rw [hself]
      rfl
    · rwa [hother x hxa]

/-- A value that is not inserted is given up. -/
theorem object_set_new_fails {s : JsonStore} {a n : Nat} {ms : List (String × JsonRef)}
    (h : s.nodes.cells a = some ⟨n, .object ms⟩) (key : String) (v : JsonRef) :
    json_object_set_new true (some (.node a)) key (some v) s = json_decref (some v) s := by
  unfold json_object_set_new
  simp only [h, true_or, if_true]

theorem Under.new {a : Nat} {ms : List (String × JsonRef)} {s : JsonStore} (h : Under a ms s)
    {node : JsonNode} (hnode : node.children = []) : Under a ms (s.new node).1 := by
  have ha := Arena.lt_next_of_cell h.cell
  refine ⟨?_, h.fenced.congr (fun b hb => new_cells_ne (by omega)), fun b hb => ?_,
    fun m hm x hx => ?_⟩
  · rw [new_cells_ne (Nat.ne_of_lt ha), h.cell]
  · have hs := h.scalars b hb
    unfold JsonStore.childrenAt at hs ⊢
    by_cases hbn : b = s.nodes.next
    · subst b
      rw [new_cells_self]
      exact hnode
    · rw [new_cells_ne hbn]
      exact hs
  · refine (h.members m hm x hx).imp_right fun hl => ?_
    obtain ⟨c, hc⟩ := Arena.live_iff.mp hl
    exact Arena.live_iff.mpr ⟨c, Arena.alloc_cells_of_some hc⟩

/-- One member more, or none when a call of the library failed. -/
theorem addPart_spec {a : Nat} {ms : List (String × JsonRef)} {s : JsonStore}
    (h : Under a ms s) {key : String} {part : Part} (hkey : ms.lookup key = none)
    (hfit : part.Fits a) (fails : Bool) :
    ∃ r, Under a (ms ++ if part.made && !fails then [(key, r)] else [])
          (addPart fails (some (.node a)) key part s) ∧
      ((part.made && !fails) = true →
        part.Is a (addPart fails (some (.node a)) key part s) r) ∧
      (∀ b, a < b → ∀ c, s.nodes.cells b = some c →
        (addPart fails (some (.node a)) key part s).nodes.cells b = some c) ∧
      (part.Kept (!fails) → ∀ b < a,
        (addPart fails (some (.node a)) key part s).nodes.cells b = s.nodes.cells b) := by
  have ha := Arena.lt_next_of_cell h.cell
  -- the store is as it was before
  have hsame : ∀ t, t = s → (part.made && !fails) = false →
      ∃ r, Under a (ms ++ if part.made && !fails then [(key, r)] else []) t ∧
        ((part.made && !fails) = true → part.Is a t r) ∧
        (∀ b, a < b → ∀ c, s.nodes.cells b = some c → t.nodes.cells b = some c) ∧
        (part.Kept (!fails) → ∀ b < a, t.nodes.cells b = s.nodes.cells b) := by
    rintro t rfl hm
    refine ⟨.null, ?_, fun ht => ?_, fun b _ c hc => hc, fun _ b _ => rfl⟩
    · rw [hm, if_neg Bool.false_ne_true, List.append_nil]
      exact h
    · rw [hm] at ht
      cases ht
  cases part with
  | leaf lost node =>
    obtain ⟨v, hv⟩ := hfit
    have hnode := children_of_scalar hv
    cases lost with
    | true => exact hsame s rfl rfl
    | false =>
      have hnew := h.new hnode
      cases fails with
      | true =>
        have hset : addPart true (some (.node a)) key (.leaf false node) s =
            json_object_set_new true (some (.node a)) key (some (s.new node).2)
              (s.new node).1 := rfl
        apply hsame _ _ rfl
        rw [hset, object_set_new_fails hnew.cell, json_decref_new hnode]
      | false =>
        have hne : (s.new node).2 ≠ .node a := by
          rw [new_ref]
          intro he
          cases he
          omega
        obtain ⟨hins, hother⟩ := hnew.insert hkey hne (fun x hx => by
          cases hx
          exact .inr (Arena.live_iff.mpr ⟨_, new_cells_self s node⟩))
        refine ⟨(s.new node).2, hins, fun _ => ⟨s.nodes.next, ha, rfl, ?_⟩, fun b hb c hc => ?_,
          fun _ b hb => ?_⟩
        · exact (hother _ (Nat.ne_of_gt ha)).trans (new_cells_self s node)
        · exact (hother b (Nat.ne_of_gt hb)).trans (Arena.alloc_cells_of_some hc)
        · exact (hother b (Nat.ne_of_lt hb)).trans (new_cells_ne (by omega))
  | given value =>
    cases value with
    | none => exact hsame s rfl rfl
    | some v =>
      have hbelow : Below a v := hfit v rfl
      cases fails with
      | true =>
        have hdec := json_decref_below hbelow h.fenced
        have haddr : addPart true (some (.node a)) key (.given (some v)) s =
            json_decref (some v) s := object_set_new_fails h.cell key v
        rw [haddr]
        refine ⟨.null, ?_, fun ht => (by cases ht), fun b hb c hc => ?_, fun hk b _ => ?_⟩
        · simpa [Part.made] using h.congr hdec.1 hdec.2
        · exact (hdec.1 b (Nat.le_of_lt hb)).trans hc
        · cases hk rfl
      | false =>
        have hne : v ≠ .node a := by
          rintro rfl
          exact Nat.lt_irrefl a (hbelow a rfl)
        obtain ⟨hins, hother⟩ := h.insert hkey hne (fun x hx => .inl (hbelow x hx))
        refine ⟨v, hins, fun _ => rfl, fun b hb c hc => ?_, fun _ b hb => ?_⟩
        · exact (hother b (Nat.ne_of_gt hb)).trans hc
        · exact hother b (Nat.ne_of_lt hb)

/-- The new object holds the members that could be made and inserted. -/
theorem buildPair_spec {s : JsonStore} (hs : Fenced s.nodes.next s) {key1 key2 : String}
    {part1 part2 : Part} (hfit1 : part1.Fits s.nodes.next) (hfit2 : part2.Fits s.nodes.next)
    (hkeys : key2 ≠ key1) (oom1 oom2 : Bool) :
    (buildPair false oom1 oom2 key1 part1 key2 part2 s).2 = some (.node s.nodes.next) ∧
      ∃ r1 r2,
        Under s.nodes.next
          ((if part1.made && !oom1 then [(key1, r1)] else []) ++
            if part2.made && !oom2 then [(key2, r2)] else [])
          (buildPair false oom1 oom2 key1 part1 key2 part2 s).1 ∧
        ((part1.made && !oom1) = true → part1.Is s.nodes.next
          (buildPair false oom1 oom2 key1 part1 key2 part2 s).1 r1) ∧
        ((part2.made && !oom2) = true → part2.Is s.nodes.next
          (buildPair false oom1 oom2 key1 part1 key2 part2 s).1 r2) ∧
        (part1.Kept (!oom1) → part2.Kept (!oom2) → ∀ b < s.nodes.next,
          (buildPair false oom1 oom2 key1 part1 key2 part2 s).1.nodes.cells b =
            s.nodes.cells b) := by
  refine ⟨rfl, ?_⟩
  have hkey1 : ([] : List (String × JsonRef)).lookup key1 = none := rfl
  obtain ⟨r1, hu1, his1, hlive1, hkept1⟩ := addPart_spec (under_new hs) hkey1 hfit1 oom1
  have hkey : ([] ++ if part1.made && !oom1 then [(key1, r1)] else []).lookup key2 = none := by
    split
    · rw [List.nil_append, List.lookup_cons, beq_false_of_ne hkeys]
      rfl
    · rfl
  obtain ⟨r2, hu2, his2, hlive2, hkept2⟩ := addPart_spec hu1 hkey hfit2 oom2
  refine ⟨r1, r2, hu2, fun h1 => ?_, his2, fun hk1 hk2 b hb => ?_⟩
  · have his := his1 h1
    cases part1 with
    | leaf lost node =>
      obtain ⟨x, hx, hr, hcell⟩ := his
      exact ⟨x, hx, hr, hlive2 x hx _ hcell⟩
    | given value => exact his
  · refine (hkept2 hk2 b hb).trans ((hkept1 hk1 b hb).trans ?_)
    exact new_cells_ne (Nat.ne_of_lt hb)

end jrpc.connection
