-- The chat server of the example: the handlers of main.cc, which keep a map of all chatters
-- and send to each of them what one of them says. A handler may run out of memory in each
-- call of the JSON library that it makes, and it drops the results of these calls.
import Jrpc.Statements
import Jrpc.UnorderedMap

open heap unordered
open jrpc.json jrpc.message jrpc.queue jrpc.connection jrpc.protocol jrpc.service

namespace jrpc.chatserver

/-! ## What the handlers remember -/

structure Chatter where
  connection : Conn
  name : Bytes

/-- The variables of main.cc. `oom n` says that the allocation after the next `n` ones that a
handler makes in the JSON library fails. -/
structure Statics where
  chatters : UnorderedMap Conn Chatter
  oom : Nat → Bool

/-- A C string ends at its first NUL. -/
def cString (s : Bytes) : Bytes := s.takeWhile (· ≠ 0)

/-- A `chatter &`, as the key of the entry that it refers to. -/
abbrev ChatterRef := Conn

/-- A reference is used only while its entry is there. -/
def Statics.chatter (g : Statics) (who : ChatterRef) : Chatter :=
  (g.chatters.find who).getD ⟨who, []⟩

/-! ## Statements -/

/-- The variables and the JSON values are looked at. -/
def look (k : Statics → JsonStore → UserProg Statics) : UserProg Statics :=
  .compute (fun g s => (g, s)) k

/-- The variables are changed. -/
def assign (f : Statics → Statics) (rest : UserProg Statics) : UserProg Statics :=
  .compute (fun g s => (f g, s)) fun _ _ => rest

/-- A call of the JSON library that may run out of memory. -/
def library {α : Type} (f : Bool → JsonStore → JsonStore × α) (k : α → UserProg Statics) :
    UserProg Statics :=
  look fun g s =>
    .compute (fun g _ => ({ g with oom := later 1 g.oom }, (f (g.oom 0) s).1)) fun _ _ =>
      k (f (g.oom 0) s).2

def append (array value : Option JsonRef) (rest : UserProg Statics) : UserProg Statics :=
  library (fun fails s => (json_array_append_new fails array value s, ())) fun _ => rest

def set (object : Option JsonRef) (key : String) (value : Option JsonRef)
    (rest : UserProg Statics) : UserProg Statics :=
  library (fun fails s => (json_object_set_new fails object key value s, ())) fun _ => rest

/-- A notification with two strings, as the bodies of both loops of main.cc send it. -/
def notifyPair (lib : JsonLib) (connection : Conn) (method first second : Bytes)
    (rest : UserProg Statics) : UserProg Statics :=
  library json_array fun params =>
  library (fun fails => json_string lib fails first) fun value =>
  append params value <|
  library (fun fails => json_string lib fails second) fun value =>
  append params value <|
  .send connection (.notify method params) rest

/-! ## The functions of main.cc -/

def is_name_used (g : Statics) (name : Bytes) : Bool :=
  g.chatters.entries.any fun item => item.2.name = name

def announce (lib : JsonLib) (what who : Bytes) (rest : UserProg Statics) : UserProg Statics :=
  look fun g _ =>
  forEach g.chatters.entries (fun item rest =>
    notifyPair lib item.2.connection (text "announce") what who rest) rest

def set_name (lib : JsonLib) (who : ChatterRef) (params : Option JsonRef) (id : Int32) :
    UserProg Statics :=
  look fun g s =>
  let name_holder := params.bind fun r => json_array_get s r 0
  if name_holder.any (json_is_string s) then
    let name := cString ((name_holder.map (json_string_value s)).getD [])
    if !is_name_used g name then
      assign (fun g => { g with chatters := g.chatters.modify who fun c => { c with name } }) <|
      library json_object fun result =>
      library (fun fails => json_string lib fails name) fun value =>
      set result "name" value <|
      look fun g _ => .send (g.chatter who).connection (.respond result id) <|
      look fun g _ => announce lib (text "arrived") (g.chatter who).name .ret
    else
      .send (g.chatter who).connection (.respond_error 1 (text "name already used") id) .ret
  else .send (g.chatter who).connection (.respond_error (-1) (text "invalid params") id) .ret

def onmethod (lib : JsonLib) (connection : Conn) (method_name : Bytes) (params : Option JsonRef)
    (id : Int32) : UserProg Statics :=
  look fun g _ =>
  match g.chatters.find connection with
  | some _ =>
    if cString method_name = text "set_name" then set_name lib connection params id
    else .send connection (.respond_error (-1) (text "not implemented") id) .ret
  | none => .send connection (.respond_error (-1) (text "invalid connection") id) .ret

def chat (lib : JsonLib) (who : ChatterRef) (params : Option JsonRef) : UserProg Statics :=
  look fun g s =>
  let message_holder := params.bind fun r => json_array_get s r 0
  if message_holder.any (json_is_string s) then
    let message := cString ((message_holder.map (json_string_value s)).getD [])
    forEach g.chatters.entries (fun item rest =>
      look fun g _ =>
      notifyPair lib item.2.connection (text "message") (g.chatter who).name message rest) .ret
  else .ret

def onnotify (lib : JsonLib) (connection : Conn) (method_name : Bytes)
    (params : Option JsonRef) : UserProg Statics :=
  look fun g _ =>
  match g.chatters.find connection with
  | some _ => if cString method_name = text "chat" then chat lib connection params else .ret
  | none => .ret

def onconnected (hashing : Hashing Conn Chatter) (connection : Conn) : UserProg Statics :=
  assign (fun g =>
    { g with chatters := g.chatters.insert hashing connection ⟨connection, []⟩ }) .ret

def ondisconnected (lib : JsonLib) (connection : Conn) : UserProg Statics :=
  look fun g _ =>
  match g.chatters.find connection with
  | some who =>
    announce lib (text "gone") who.name <|
    assign (fun g => { g with chatters := g.chatters.erase connection }) .ret
  | none => .ret

/-- A server with the handlers that `main` sets. -/
def chatServer (hashing : Hashing Conn Chatter) (env : Env Statics) : Env Statics :=
  { env with
    protocol :=
      { env.protocol with
        onmethod := onmethod env.platform.lib
        onnotify := onnotify env.platform.lib
        onconnected := onconnected hashing
        ondisconnected := ondisconnected env.platform.lib } }

/-- The process was just started. `fails` is for the handlers, and `oom` for the server. -/
def chatStart (oom fails : Nat → Bool) : World Statics :=
  start .empty oom ⟨.empty, fails⟩

end jrpc.chatserver
