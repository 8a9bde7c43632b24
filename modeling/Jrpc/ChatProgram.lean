-- The program of the chat example, from its arguments to its end: what main calls is one list of
-- calls of the server, and each moment of the program is a first part of it.
import Jrpc.Conversations
import Jrpc.Together

open heap runs unordered room
open jrpc.json jrpc.message jrpc.queue jrpc.connection jrpc.protocol jrpc.service jrpc.server

namespace jrpc.chatserver

/-! ## Numbers -/

def isspace (c : UInt8) : Bool := c = 32 || (9 ≤ c && c ≤ 13)

def isdigit (c : UInt8) : Bool := 48 ≤ c && c ≤ 57

def digits (s : Bytes) : Int :=
  (s.takeWhile isdigit).foldl (fun n c => 10 * n + (c.toNat - 48 : Nat)) 0

/-- `strtol(s, NULL, 10)`, where a `long` has 64 bits. -/
def strtol (s : Bytes) : Int :=
  match s.dropWhile isspace with
  | 45 :: s => max (-digits s) (-2 ^ 63)
  | 43 :: s => min (digits s) (2 ^ 63 - 1)
  | s => min (digits s) (2 ^ 63 - 1)

/-- `(int) strtol(s, NULL, 10)` -/
def atoi (s : Bytes) : Int32 := Int32.ofInt (strtol s)

/-! ## Arguments -/

def EXIT_SUCCESS : Int32 := 0

def EXIT_FAILURE : Int32 := 1

def letter (c : Char) : Int32 := Int32.ofNat c.toNat

/-- What a call of `getopt_long` gives. `fails` says that there is no memory for a copy of
`optarg`. -/
structure Parsed where
  c : Int32
  optarg : Bytes
  fails : Bool

/-- What `parse_arguments` calls, prints and returns. -/
structure Arguments where
  acts : List (Act Statics)
  show_help : Bool
  error : Bytes
  result : Int32

def Arguments.add (act : Act Statics) (arguments : Arguments) : Arguments :=
  { arguments with acts := act :: arguments.acts }

/-- `getopt_long` gives these results, and then -1. -/
def parse_arguments : List Parsed → Arguments
  | [] => ⟨[], false, [], EXIT_SUCCESS⟩
  | p :: parsed =>
    if p.c = -1 then ⟨[], false, [], EXIT_SUCCESS⟩
    else if p.c = letter 'h' then ⟨[], true, [], EXIT_FAILURE⟩
    else if p.c = letter 'd' then
      (parse_arguments parsed).add (.set_documentroot p.fails p.optarg)
    else if p.c = letter 'c' then (parse_arguments parsed).add (.set_certpath p.fails p.optarg)
    else if p.c = letter 'k' then (parse_arguments parsed).add (.set_keypath p.fails p.optarg)
    else if p.c = letter 'p' then (parse_arguments parsed).add (.set_port (atoi p.optarg))
    else ⟨[], false, text "error: unknown argument\n", EXIT_FAILURE⟩

/-! ## The program -/

/-- A turn of the loop: the context that `lws_create_context` makes if it is called, and the
callbacks that come. -/
structure Turn where
  created : Option Nat
  callbacks : List Callback

/-- What happens to the program: the memory for the name of the protocol, the arguments, the turns
until a signal ends the loop, and the callbacks that come when the context is destroyed. -/
structure Life where
  fails : Bool
  parsed : List Parsed
  turns : List Turn
  last : List Callback

def calledBack (callbacks : List Callback) : List (Act Statics) :=
  callbacks.map fun cb => .input (.callback cb)

/-- The calls of the server that `main` makes after the server was created, and its result. -/
def main (hashing : Hashing Conn Chatter) (lib : JsonLib) (life : Life) :
    List (Act Statics) × Int32 :=
  let arguments := parse_arguments life.parsed
  ([.set_protocolname life.fails (text "jrpc-chat"), .set_onconnected (onconnected hashing),
      .set_ondisconnected (ondisconnected lib), .set_onmethod (onmethod lib),
      .set_onnotify (onnotify lib)] ++
    arguments.acts ++
    (if arguments.result = EXIT_SUCCESS then
      life.turns.flatMap (fun turn => .run 1000 turn.created :: calledBack turn.callbacks) ++
        calledBack life.last
    else []) ++
    [.dispose], arguments.result)

/-! ## What the arguments ask for -/

def Parsed.port (p : Parsed) : Option Int32 :=
  if p.c = letter 'p' then some (atoi p.optarg) else none

def Parsed.path (c : Char) (p : Parsed) : Option (Option Bytes) :=
  if p.c = letter c then some (strdup p.fails p.optarg) else none

/-- The options before the end. -/
def Life.options (life : Life) : List Parsed := life.parsed.takeWhile fun p => p.c ≠ -1

/-- Of each option the last one counts. -/
def Life.settings (life : Life) : Settings where
  port := lastOf Parsed.port JRPC_SERVER_DEFAULT_PORT life.options
  protocol_name := strdup life.fails (text "jrpc-chat")
  document_root := lastOf (Parsed.path 'd') none life.options
  cert_path := lastOf (Parsed.path 'c') none life.options
  key_path := lastOf (Parsed.path 'k') none life.options

/-! ## Arguments and settings -/

/-- The call that an option makes. -/
def Parsed.act (p : Parsed) : Act Statics :=
  if p.c = letter 'd' then .set_documentroot p.fails p.optarg
  else if p.c = letter 'c' then .set_certpath p.fails p.optarg
  else if p.c = letter 'k' then .set_keypath p.fails p.optarg
  else .set_port (atoi p.optarg)

def Parsed.Known (p : Parsed) : Prop :=
  p.c = letter 'd' ∨ p.c = letter 'c' ∨ p.c = letter 'k' ∨ p.c = letter 'p'

theorem parse_known {p : Parsed} (h : p.Known) (parsed : List Parsed) :
    p.c ≠ -1 ∧ parse_arguments (p :: parsed) = (parse_arguments parsed).add p.act := by
  rw [parse_arguments, Parsed.act]
  rcases h with h | h | h | h
  · rw [h]
    exact ⟨by decide, rfl⟩
  · rw [h]
    exact ⟨by decide, rfl⟩
  · rw [h]
    exact ⟨by decide, rfl⟩
  · rw [h]
    exact ⟨by decide, rfl⟩

theorem parse_unknown {p : Parsed} (hend : p.c ≠ -1) (h : ¬ p.Known) (parsed : List Parsed) :
    (parse_arguments (p :: parsed)).result = EXIT_FAILURE ∧
      (parse_arguments (p :: parsed)).acts = [] := by
  unfold Parsed.Known at h
  rw [parse_arguments, if_neg hend]
  split
  · exact ⟨rfl, rfl⟩
  · rw [if_neg fun hd => h (.inl hd), if_neg fun hc => h (.inr (.inl hc)),
      if_neg fun hk => h (.inr (.inr (.inl hk))), if_neg fun hp => h (.inr (.inr (.inr hp)))]
    exact ⟨rfl, rfl⟩

/-- All arguments are taken just when all options before the end are known, and then each of them
makes its call. -/
theorem parse_arguments_success (parsed : List Parsed) :
    (parse_arguments parsed).result = EXIT_SUCCESS ↔
      (∀ p ∈ parsed.takeWhile (fun p => p.c ≠ -1), p.Known) ∧
        (parse_arguments parsed).acts = (parsed.takeWhile fun p => p.c ≠ -1).map Parsed.act := by
  induction parsed with
  | nil => simp [parse_arguments]
  | cons p parsed ih =>
    by_cases hend : p.c = -1
    · simp [parse_arguments, hend]
    · rw [List.takeWhile_cons_of_pos (by simpa using hend)]
      by_cases h : p.Known
      · rw [(parse_known h parsed).2]
        simp only [Arguments.add, List.forall_mem_cons, List.map_cons, List.cons.injEq, true_and, h]
        exact ih
      · rw [(parse_unknown hend h parsed).1]
        refine ⟨fun hn => absurd hn (by decide), fun hall => ?_⟩
        exact absurd (hall.1 p List.mem_cons_self) h

theorem Parsed.act_port {p : Parsed} (h : p.Known) : p.act.port = p.port := by
  unfold Parsed.act Parsed.port
  rcases h with h | h | h | h <;> rw [h] <;> rfl

/-- The options with a path, and what each of them sets. -/
def pathOptions : List (Char × (Act Statics → Option (Option Bytes))) :=
  [('d', Act.document_root), ('c', Act.cert_path), ('k', Act.key_path)]

theorem Parsed.act_path {p : Parsed} (h : p.Known) :
    ∀ option ∈ pathOptions, option.2 p.act = p.path option.1 := by
  unfold Parsed.act Parsed.path
  intro option hoption
  simp only [pathOptions, List.mem_cons, List.not_mem_nil, or_false] at hoption
  rcases hoption with rfl | rfl | rfl <;> rcases h with h | h | h | h <;> rw [h] <;> rfl

/-! ## The parts of the program -/

/-- An act that sets no handler. -/
def KeepsHandlers (act : Act Statics) : Prop :=
  act.onmethod = none ∧ act.onnotify = none ∧ act.onconnected = none ∧ act.ondisconnected = none

/-- An act that sets nothing of what a configuration is made of. -/
def KeepsSettings (act : Act Statics) : Prop :=
  act.port = none ∧ act.protocol_name = none ∧ act.document_root = none ∧ act.cert_path = none ∧
    act.key_path = none

theorem protocolOf_keeps {address : Nat} {fd : Int32 × Int32} {before more : List (Act Statics)}
    (h : ∀ act ∈ more, KeepsHandlers act) :
    protocolOf address fd (before ++ more) = protocolOf address fd before := by
  unfold protocolOf
  simp only [lastOf_append]
  rw [lastOf_of_none fun act ha => (h act ha).1, lastOf_of_none fun act ha => (h act ha).2.1,
    lastOf_of_none fun act ha => (h act ha).2.2.1, lastOf_of_none fun act ha => (h act ha).2.2.2]

theorem settingsOf_keeps {fails : Bool} {before more : List (Act Statics)}
    (h : ∀ act ∈ more, KeepsSettings act) :
    settingsOf fails (before ++ more) = settingsOf fails before := by
  unfold settingsOf
  simp only [lastOf_append]
  rw [lastOf_of_none fun act ha => (h act ha).1, lastOf_of_none fun act ha => (h act ha).2.1,
    lastOf_of_none fun act ha => (h act ha).2.2.1,
    lastOf_of_none fun act ha => (h act ha).2.2.2.1,
    lastOf_of_none fun act ha => (h act ha).2.2.2.2]

/-- The calls before the loop. -/
def early (hashing : Hashing Conn Chatter) (lib : JsonLib) (life : Life) : List (Act Statics) :=
  [.set_protocolname life.fails (text "jrpc-chat"), .set_onconnected (onconnected hashing),
      .set_ondisconnected (ondisconnected lib), .set_onmethod (onmethod lib),
      .set_onnotify (onnotify lib)] ++
    (parse_arguments life.parsed).acts

/-- The loop. -/
def serving (life : Life) : List (Act Statics) :=
  if (parse_arguments life.parsed).result = EXIT_SUCCESS then
    life.turns.flatMap (fun turn => .run 1000 turn.created :: calledBack turn.callbacks) ++
      calledBack life.last
  else []

theorem main_eq (hashing : Hashing Conn Chatter) (lib : JsonLib) (life : Life) :
    (main hashing lib life).1 = early hashing lib life ++ (serving life ++ [.dispose]) :=
  List.append_assoc _ _ _

/-- An act of the loop. -/
def Turns : Act Statics → Prop
  | .run _ _ => True
  | .input _ => True
  | _ => False

theorem Turns.keeps {act : Act Statics} (h : Turns act) :
    KeepsHandlers act ∧ KeepsSettings act := by
  cases act with
  | run timeout_ms created => exact ⟨⟨rfl, rfl, rfl, rfl⟩, rfl, rfl, rfl, rfl, rfl⟩
  | input i => exact ⟨⟨rfl, rfl, rfl, rfl⟩, rfl, rfl, rfl, rfl, rfl⟩
  | _ => cases h

theorem Parsed.act_keeps (p : Parsed) :
    KeepsHandlers p.act ∧ p.act.protocol_name = none ∧ ¬ Turns p.act := by
  unfold Parsed.act
  split
  · exact ⟨⟨rfl, rfl, rfl, rfl⟩, rfl, id⟩
  · split
    · exact ⟨⟨rfl, rfl, rfl, rfl⟩, rfl, id⟩
    · split <;> exact ⟨⟨rfl, rfl, rfl, rfl⟩, rfl, id⟩

/-- All that `parse_arguments` calls is called for an option. -/
theorem parse_arguments_options (parsed : List Parsed) :
    ∀ act ∈ (parse_arguments parsed).acts, ∃ p : Parsed, act = p.act := by
  induction parsed with
  | nil => simp [parse_arguments]
  | cons p parsed ih =>
    by_cases hend : p.c = -1
    · simp [parse_arguments, hend]
    · by_cases h : p.Known
      · rw [(parse_known h parsed).2]
        intro act hact
        rcases List.mem_cons.mp hact with rfl | hact
        · exact ⟨p, rfl⟩
        · exact ih act hact
      · rw [(parse_unknown hend h parsed).2]
        simp

variable {hashing : Hashing Conn Chatter} {lib : JsonLib} {life : Life}

theorem early_no_turns : ∀ act ∈ early hashing lib life, ¬ Turns act := by
  intro act hact
  rcases List.mem_append.mp hact with hact | hact
  · simp only [List.mem_cons, List.not_mem_nil, or_false] at hact
    rcases hact with rfl | rfl | rfl | rfl | rfl <;> exact id
  · obtain ⟨p, rfl⟩ := parse_arguments_options _ act hact
    exact p.act_keeps.2.2

theorem serving_turns : ∀ act ∈ serving life, Turns act := by
  intro act hact
  have hcalled : ∀ callbacks, act ∈ calledBack callbacks → Turns act := by
    intro callbacks hmem
    obtain ⟨cb, _, rfl⟩ := List.mem_map.mp hmem
    trivial
  unfold serving at hact
  split at hact
  · rcases List.mem_append.mp hact with hact | hact
    · obtain ⟨turn, _, hact⟩ := List.mem_flatMap.mp hact
      rcases List.mem_cons.mp hact with rfl | hact
      · trivial
      · exact hcalled _ hact
    · exact hcalled _ hact
  · cases hact

/-- What comes before an act of the loop: all that is set, and other acts of the loop. -/
theorem before_turn {before after : List (Act Statics)} {act : Act Statics}
    (h : before ++ act :: after <+: (main hashing lib life).1) (hact : Turns act) :
    ∃ more, before = early hashing lib life ++ more ∧ (∀ a ∈ more, Turns a) ∧
      (parse_arguments life.parsed).result = EXIT_SUCCESS := by
  obtain ⟨rest, h⟩ := h
  rw [main_eq, List.append_assoc, List.cons_append] at h
  obtain ⟨more, rfl, hlate⟩ : ∃ more, before = early hashing lib life ++ more ∧
      serving life ++ [.dispose] = more ++ act :: (after ++ rest) := by
    rcases List.append_eq_append_iff.mp h with ⟨more, hearly, hlate⟩ | ⟨more, hbefore, hlate⟩
    · rcases more with _ | ⟨x, more⟩
      · exact ⟨[], by rw [hearly, List.append_nil, List.append_nil], hlate.symm⟩
      · -- what is set is no act of the loop
        obtain ⟨rfl, _⟩ := List.cons.inj hlate
        have hmem : act ∈ early hashing lib life := by
          rw [hearly]
          simp
        exact absurd hact (early_no_turns act hmem)
    · exact ⟨more, hbefore, hlate⟩
  -- the last act is the end
  obtain ⟨tail, hserving⟩ : ∃ tail, serving life = more ++ act :: tail := by
    rcases List.eq_nil_or_concat (after ++ rest) with hnil | ⟨tail, last, htail⟩
    · rw [hnil] at hlate
      obtain ⟨_, he⟩ := List.append_inj' hlate rfl
      cases he
      cases hact
    · rw [htail, List.concat_eq_append, ← List.cons_append, ← List.append_assoc] at hlate
      exact ⟨tail, (List.append_inj' hlate rfl).1⟩
  refine ⟨more, rfl, fun a ha => ?_, ?_⟩
  · have hmem : a ∈ serving life := by
      rw [hserving]
      exact List.mem_append_left _ ha
    exact serving_turns a hmem
  · by_contra hresult
    rw [serving, if_neg hresult] at hserving
    simp at hserving

/-- What the callbacks find when the handlers of the chat server are set. -/
def chatProtocol (hashing : Hashing Conn Chatter) (lib : JsonLib) (address : Nat)
    (fd : Int32 × Int32) : JrpcProtocol Statics :=
  ⟨address, onmethod lib, onnotify lib, onconnected hashing, ondisconnected lib, fd⟩

/-- While the loop runs, the handlers are the ones of the chat server. -/
theorem protocol_of_turn {address : Nat} {fd : Int32 × Int32} {before after : List (Act Statics)}
    {act : Act Statics} (h : before ++ act :: after <+: (main hashing lib life).1)
    (hact : Turns act) :
    protocolOf address fd before = chatProtocol hashing lib address fd := by
  obtain ⟨more, rfl, hmore, _⟩ := before_turn h hact
  rw [protocolOf_keeps fun a ha => (hmore a ha).keeps.1, early, protocolOf_keeps]
  · rfl
  · intro a ha
    obtain ⟨p, rfl⟩ := parse_arguments_options _ a ha
    exact p.act_keeps.1

/-- While the loop runs, the settings are the ones that the arguments ask for. -/
theorem settings_of_turn (fails : Bool) {before after : List (Act Statics)} {act : Act Statics}
    (h : before ++ act :: after <+: (main hashing lib life).1) (hact : Turns act) :
    (main hashing lib life).2 = EXIT_SUCCESS ∧ settingsOf fails before = life.settings := by
  obtain ⟨more, rfl, hmore, hresult⟩ := before_turn h hact
  obtain ⟨hknown, hacts⟩ := (parse_arguments_success _).mp hresult
  refine ⟨hresult, ?_⟩
  rw [settingsOf_keeps fun a ha => (hmore a ha).keeps.2, early, hacts]
  have hname : ∀ p ∈ life.options, p.act.protocol_name = none := fun p _ => p.act_keeps.2.1
  unfold Life.options at hname
  unfold settingsOf Life.settings Life.options
  simp only [lastOf_append, lastOf_map]
  rw [lastOf_of_none hname, lastOf_congr fun p hp => Parsed.act_port (hknown p hp),
    lastOf_congr fun p hp => Parsed.act_path (hknown p hp) _ (.head _),
    lastOf_congr fun p hp => Parsed.act_path (hknown p hp) _ (.tail _ (.head _)),
    lastOf_congr fun p hp => Parsed.act_path (hknown p hp) _ (.tail _ (.tail _ (.head _)))]
  rfl

/-! ## The whole program -/

/-- There is no user code beside the callbacks. -/
theorem callbacks_only {done : List (Act Statics)} (h : done <+: (main hashing lib life).1)
    {i : Input Statics} (hi : .input i ∈ done) : ∃ cb, i = .callback cb := by
  have hmem := h.subset hi
  rw [main_eq] at hmem
  have hcalled : ∀ callbacks, .input i ∈ calledBack callbacks → ∃ cb, i = .callback cb := by
    intro callbacks hmem
    obtain ⟨cb, _, he⟩ := List.mem_map.mp hmem
    cases he
    exact ⟨cb, rfl⟩
  rcases List.mem_append.mp hmem with hmem | hmem
  · exact absurd trivial (early_no_turns _ hmem)
  rcases List.mem_append.mp hmem with hmem | hmem
  · unfold serving at hmem
    split at hmem
    · rcases List.mem_append.mp hmem with hmem | hmem
      · obtain ⟨turn, _, hmem⟩ := List.mem_flatMap.mp hmem
        rcases List.mem_cons.mp hmem with he | hmem
        · cases he
        · exact hcalled _ hmem
      · exact hcalled _ hmem
    · cases hmem
  · simp at hmem

/-- The inputs of the acts are callbacks. -/
theorem inputs_main {done : List (Act Statics)} (h : done <+: (main hashing lib life).1) :
    ∃ cbs : List Callback, done.flatMap Act.inputs = cbs.map .callback := by
  have honly : ∀ i, .input i ∈ done → ∃ cb, i = .callback cb := fun i => callbacks_only h
  clear h
  induction done with
  | nil => exact ⟨[], rfl⟩
  | cons act done ih =>
    obtain ⟨cbs, hcbs⟩ := ih fun i hi => honly i (List.mem_cons_of_mem _ hi)
    rw [List.flatMap_cons, hcbs]
    cases act with
    | input i =>
      obtain ⟨cb, rfl⟩ := honly i List.mem_cons_self
      exact ⟨cb :: cbs, rfl⟩
    | _ => exact ⟨cbs, rfl⟩

/-- The server of the program, before its handlers are set. -/
def hosted (env : Env Statics) (address : Nat) (fd : Int32 × Int32) : Env Statics :=
  { env with protocol := jrpc_server_protocol_init address fd }

/-- At every moment of the program: the contexts that were made offer what the arguments ask for,
which are all known then. Each callback found the handlers of the chat server. When no allocation
fails, what was sent on each connection are the frames of the lines that a room tells it, one for
each. At the end the context and both sockets were given back. -/
theorem the_program_is_a_room (headers : Headers) (hbits : headers.Apart)
    (hashing : Hashing Conn Chatter) (env : Env Statics) (memory : JrpcServer Statics)
    (address : Nat) (fd : Option (Int32 × Int32)) (fails : Bool) (oom handler_fails : Nat → Bool)
    (life : Life) {done : List (Act Statics)}
    (hdone : done <+: (main hashing env.platform.lib life).1) {s : server.State Statics}
    {out : List Seen}
    (hr : run (server.step headers env)
      (server.created (some memory) address fd fails (chatStart oom handler_fails)) done =
        .ok (s, out)) :
    (∀ config, .lws_create_context config ∈ out →
        (∀ p ∈ life.options, p.Known) ∧
          config.offer headers = some (life.settings.offer headers)) ∧
      (∀ before i after, done = before ++ .input i :: after → ∃ s1 out1 block,
        run (server.step headers env)
          (server.created (some memory) address fd fails (chatStart oom handler_fails)) before =
            .ok (s1, out1) ∧ s1.block = some block ∧
        block.protocol.toJrpcProtocol =
          chatProtocol hashing env.platform.lib address (fd.getD memory.protocol.fd)) ∧
      (ReadsUtf8 env.platform.lib → (∀ n, oom n = false) → (∀ n, handler_fails n = false) →
        ∀ c, framesTo c (events out) =
          (Room.hears c .empty (acts env.platform.lib (done.flatMap Act.inputs))).map lineFrame) ∧
      (done = (main hashing env.platform.lib life).1 →
        s.block = none ∧ ∃ before, out = before ++
          (((contextOf done).map .lws_context_destroy).toList ++
            [.close (fd.getD memory.protocol.fd).1, .close (fd.getD memory.protocol.fd).2])) := by
  obtain ⟨server, hcreated, hsetUp⟩ :=
    setUp_created memory address fd fails (chatStart oom handler_fails)
  rw [hcreated] at hr ⊢
  have hsame : ∀ before i after, done = before ++ .input i :: after →
      protocolOf address (fd.getD memory.protocol.fd) before =
        chatProtocol hashing env.platform.lib address (fd.getD memory.protocol.fd) := by
    intro before i after he
    rw [he] at hdone
    exact protocol_of_turn hdone trivial
  refine ⟨fun config hconfig => ?_, fun before i after he => ?_, fun hlib hoom hfails c => ?_,
    fun hend => ?_⟩
  · obtain ⟨before, act, after, s1, s2, os1, o, rfl, hbefore, hact, hmem⟩ :=
      step_of_output hr hconfig
    obtain ⟨⟨timeout_ms, made, rfl⟩, hoffer⟩ :=
      (run_does hbits hsetUp hbefore hact).creates hmem
    obtain ⟨hresult, hsettings⟩ := settings_of_turn fails hdone trivial
    rw [hsettings] at hoffer
    exact ⟨((parse_arguments_success _).mp hresult).1, hoffer⟩
  · rw [he] at hr
    obtain ⟨s1, out1, _, hbefore, hrest, _⟩ := run_append_ok.mp hr
    obtain ⟨s2, _, _, hinput, _, _⟩ := run_cons_ok.mp hrest
    obtain ⟨block, hblock, _⟩ := step_input hinput
    exact ⟨s1, out1, block, hbefore, hblock,
      (run_setUp hbits hsetUp hbefore block hblock).protocol.trans (hsame before i after he)⟩
  · have hcallbacks := hsetUp.callbacks hbits hsame hr
    obtain ⟨cbs, hcbs⟩ := inputs_main hdone
    rw [hcbs] at hcallbacks ⊢
    have hchats : Chats (chatServer hashing (hosted env address (fd.getD memory.protocol.fd)))
        (chatStart oom handler_fails) (cbs.map .callback) s.world (events out) :=
      start_chats hcallbacks
    exact (hchats.hears c).frames (full_start hlib hoom hfails)
  · have hcontext : contextOf done =
        contextOf (early hashing env.platform.lib life ++ serving life) := by
      rw [hend, main_eq, ← List.append_assoc, contextOf_snoc]
      exact Option.or_none
    rw [hend, main_eq, ← List.append_assoc] at hr
    obtain ⟨s1, before, o, hbefore, hact, rfl⟩ := run_snoc_ok.mp hr
    obtain ⟨_, ho⟩ := run_does hbits hsetUp hbefore hact
    refine ⟨dispose_gone hact, before, ?_⟩
    rw [ho, hcontext]

/-- A block with zeros. -/
def zeroBlock : JrpcServer Statics where
  protocol := { jrpc_server_protocol_init 0 (0, 0) with user_data := none }
  ws_protocols := fun _ => .zero
  mount := .zero
  info := .zero
  context := none
  protocol_name := none
  document_root := none
  cert_path := none
  key_path := none
  port := 0

/-- Three options, of which the first one is overruled. The context cannot be made in the first
turn, and the conversation comes in the second one. -/
def sampleLife : Life where
  fails := false
  parsed := [⟨letter 'p', text "80", false⟩, ⟨letter 'd', text "www", false⟩,
    ⟨letter 'p', text " +8081x", false⟩]
  turns := [⟨none, []⟩, ⟨some 5, smallTalk⟩]
  last := [gets 7 .closed, gets 8 .closed]

def makesContext : Seen → Bool
  | .lws_create_context _ => true
  | _ => false

theorem the_program_is_a_room_sample :
    ∃ s out, run (server.step sampleHeaders chatEnv)
        (server.created (some zeroBlock) 0 (some (3, 4)) false (chatStart never never))
        (main newestFirst chatEnv.platform.lib sampleLife).1 = .ok (s, out) ∧
      out.countP makesContext = 2 ∧
      (∀ config, .lws_create_context config ∈ out →
        (config.offer sampleHeaders).map (·.port) = some 8081) ∧
      framesTo 7 (events out) = (Room.hears 7 .empty (acts chatEnv.platform.lib
        ((main newestFirst chatEnv.platform.lib sampleLife).1.flatMap Act.inputs))).map lineFrame ∧
      s.block = none := by
  have htest : runEnds (server.step sampleHeaders chatEnv)
      (server.created (some zeroBlock) 0 (some (3, 4)) false (chatStart never never))
      (main newestFirst chatEnv.platform.lib sampleLife).1
      (fun _ out => decide (out.countP makesContext = 2)) = true := by decide +kernel
  obtain ⟨s, out, hrun, htest⟩ := runEnds_spec htest
  obtain ⟨hoffers, _, hframes, hend⟩ := the_program_is_a_room sampleHeaders
    ⟨by decide, by decide⟩ newestFirst chatEnv zeroBlock 0 (some (3, 4)) false never never
    sampleLife List.prefix_rfl hrun
  refine ⟨s, out, hrun, of_decide_eq_true htest, fun config hconfig => ?_,
    hframes reads_sample (fun _ => rfl) (fun _ => rfl) 7, (hend rfl).1⟩
  rw [(hoffers config hconfig).2]
  decide +kernel

end jrpc.chatserver
