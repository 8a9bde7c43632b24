-- The page of the chat example: the functions of startup.js, what the browser keeps for them,
-- and the events that it hands to them. A script may end early by a throw, with what it did so
-- far.
import Jrpc.Json
import Jrpc.Runs

open runs
open jrpc.json

namespace jrpc.chatpage

/-! ## The browser -/

/-- What the browser computes. A string is walked through by its code points, and a value that
becomes text may throw, as an object may have a member `toString`. -/
structure Browser where
  parse : Bytes → Option Json
  stringify : Json → Bytes
  toText : Json → Option Bytes
  codePoints : Bytes → List Bytes
  isUrl : Bytes → Bool

inductive ReadyState
  | connecting
  | opened
  | closing
  | closed
  deriving DecidableEq

/-- A child of the element `content`. -/
inductive Post
  | error (message : Bytes)
  | message (nickname content : Bytes)
  | announcement (message : Bytes)
  deriving DecidableEq

/-- The variable `ws`, all web sockets that were made, the children of the element `content`, the
first one first, and the three text fields. -/
structure Page where
  ws : Option Nat
  sockets : List ReadyState
  content : List Post
  server : Bytes
  nickname : Bytes
  message : Bytes

/-- What leaves the page. -/
inductive Effect
  | connects (socket : Nat) (server : Bytes)
  | posts (socket : Nat) (data : Bytes)
  | closes (socket : Nat)

/-! ## Scripts -/

structure Ran where
  page : Page
  out : List Effect
  thrown : Bool

abbrev Script := Page → Ran

def skip : Script := fun p => ⟨p, [], false⟩

def throws : Script := fun p => ⟨p, [], true⟩

def andThen (s t : Script) : Script := fun p =>
  if (s p).thrown then s p
  else ⟨(t (s p).page).page, (s p).out ++ (t (s p).page).out, (t (s p).page).thrown⟩

/-- A `try` whose `catch` does nothing. -/
def swallow (s : Script) : Script := fun p => { s p with thrown := false }

/-- A value that is computed, or a throw. -/
def withValue {α : Type} (v : Option α) (k : α → Script) : Script :=
  match v with
  | some a => k a
  | none => throws

/-! ## Values -/

inductive Value
  | undefined
  | json (v : Json)
  | event

/-- A property of a value. There is none of `undefined` and `null`. -/
def Value.get (key : String) : Value → Option Value
  | .undefined => none
  | .json .null => none
  | .json v => some (((v.get key).map Value.json).getD .undefined)
  | .event => some .undefined

def Value.truthy : Value → Bool
  | .undefined => false
  | .json .null => false
  | .json .false => false
  | .json (.integer i) => i ≠ 0
  | .json (.real bits) => bits <<< 1 ≠ 0
  | .json (.string t) => t ≠ []
  | _ => true

def Value.isString : Value → Bool
  | .json (.string _) => true
  | _ => false

def Value.isNumber : Value → Bool
  | .json (.integer _) => true
  | .json (.real _) => true
  | _ => false

/-- `t === value` -/
def Value.isText (t : Bytes) : Value → Bool
  | .json (.string s) => s = t
  | _ => false

/-- `MESSAGE_ID_SET_NAME === value`, where the number may be written as a real. -/
def Value.isSetName : Value → Bool
  | .json (.integer i) => i = 42
  | .json (.real bits) => bits = 0x4045000000000000
  | _ => false

/-- The text of an element that is set to a value. -/
def textContent (b : Browser) : Value → Option Bytes
  | .undefined => some []
  | .json .null => some []
  | .json v => b.toText v
  | .event => some (text "[object Event]")

/-- The text of a value in a template. -/
def embedded (b : Browser) : Value → Option Bytes
  | .undefined => some (text "undefined")
  | .json v => b.toText v
  | .event => some (text "[object Event]")

/-- The first two elements of a value that can be walked through. -/
def firstTwo (b : Browser) : Value → Option (Value × Value)
  | .json (.array vs) =>
    some ((vs[0]?.map .json).getD .undefined, (vs[1]?.map .json).getD .undefined)
  | .json (.string t) =>
    some (((b.codePoints t)[0]?.map fun c => .json (.string c)).getD .undefined,
      ((b.codePoints t)[1]?.map fun c => .json (.string c)).getD .undefined)
  | _ => none

/-! ## Web sockets -/

def stateOf (p : Page) (socket : Nat) : ReadyState := p.sockets[socket]?.getD .closed

def setState (p : Page) (socket : Nat) (state : ReadyState) : Page :=
  { p with sockets := p.sockets.set socket state }

/-- `socket.close()` -/
def close (socket : Nat) : Script := fun p =>
  match stateOf p socket with
  | .connecting => ⟨setState p socket .closing, [.closes socket], false⟩
  | .opened => ⟨setState p socket .closing, [.closes socket], false⟩
  | _ => ⟨p, [], false⟩

/-- `ws.send(data)` -/
def send (data : Bytes) : Script := fun p =>
  match p.ws with
  | none => throws p
  | some socket =>
    match stateOf p socket with
    | .connecting => throws p
    | .opened => ⟨p, [.posts socket data], false⟩
    | _ => skip p

/-- `ws = new WebSocket(server, "jrpc-chat")` -/
def newSocket (b : Browser) (server : Bytes) : Script := fun p =>
  if b.isUrl server then
    ⟨{ p with ws := some p.sockets.length, sockets := p.sockets ++ [.connecting] },
      [.connects p.sockets.length server], false⟩
  else throws p

/-! ## The functions of startup.js -/

def insertBefore (post : Post) : Script := fun p =>
  ⟨{ p with content := post :: p.content }, [], false⟩

def logError (b : Browser) (message : Value) : Script :=
  withValue (textContent b message) fun t => insertBefore (.error t)

def chat (b : Browser) (nickname message : Value) : Script :=
  withValue (textContent b nickname) fun nameHolder =>
  withValue (textContent b message) fun content => insertBefore (.message nameHolder content)

def announce (b : Browser) (what who : Value) : Script :=
  withValue (embedded b who) fun name =>
  if what.isText (text "arrived") then insertBefore (.announcement (name ++ text " has entered"))
  else if what.isText (text "gone") then
    insertBefore (.announcement (name ++ text " left the chat"))
  else
    withValue (embedded b what) fun happened =>
    insertBefore (.announcement (name ++ text " has " ++ happened))

def onerror (b : Browser) (value : Value) : Script := logError b value

def setNameFrame (nickname : Bytes) : Json :=
  .object [("method", .string (text "set_name")), ("params", .array [.string nickname]),
    ("id", .integer 42)]

def onopen (b : Browser) : Script := fun p => send (b.stringify (setNameFrame p.nickname)) p

def processNotification (b : Browser) (method params : Value) : Script :=
  if method.isText (text "message") then
    withValue (firstTwo b params) fun (name, content) => chat b name content
  else if method.isText (text "announce") then
    withValue (firstTwo b params) fun (what, who) => announce b what who
  else skip

/-- `const temp = ws; ws = null; temp.close()` -/
def hangUp : Script := fun p =>
  match p.ws with
  | some temp => close temp { p with ws := none }
  | none => throws p

def processResponse (b : Browser) (response : Value) : Script :=
  withValue (response.get "id") fun id =>
  if id.isSetName then
    withValue (response.get "error") fun error =>
    if error.truthy then
      withValue (error.get "message") fun message =>
      andThen
        (logError b
          (if message.truthy then message else .json (.string (text "failed to set nickname"))))
        hangUp
    else skip
  else skip

def onmessage (b : Browser) (data : Bytes) : Script :=
  swallow <|
  withValue (b.parse data) fun v =>
  withValue ((Value.json v).get "method") fun method =>
  if method.isString then
    withValue ((Value.json v).get "params") fun params => processNotification b method params
  else
    withValue ((Value.json v).get "id") fun id =>
    if id.isNumber then processResponse b (.json v) else skip

/-- `if (null != ws) ws.close()` -/
def closeOld : Option Nat → Script
  | some ws => close ws
  | none => skip

def connect (b : Browser) : Script := fun p =>
  andThen (closeOld p.ws) (newSocket b p.server) p

def wordsFrame (message : Bytes) : Json :=
  .object [("method", .string (text "chat")), ("params", .array [.string message])]

def submit (b : Browser) : Script := fun p =>
  andThen (send (b.stringify (wordsFrame p.message)))
    (fun p => ⟨{ p with message := [] }, [], false⟩) p

/-! ## Events -/

/-- What the user and the network do. -/
inductive Event
  | edit_server (value : Bytes)
  | edit_nickname (value : Bytes)
  | edit_message (value : Bytes)
  | click_connect
  | click_submit
  | keyup (keyCode : Nat)
  | opened (socket : Nat)
  | message (socket : Nat) (data : Bytes)
  | failed (socket : Nat)
  | closed (socket : Nat)

/-- A message comes only from a socket that is open. A socket that fails is closed before its
handler of errors runs. -/
def dispatch (b : Browser) : Event → Script
  | .edit_server value => fun p => ⟨{ p with server := value }, [], false⟩
  | .edit_nickname value => fun p => ⟨{ p with nickname := value }, [], false⟩
  | .edit_message value => fun p => ⟨{ p with message := value }, [], false⟩
  | .click_connect => connect b
  | .click_submit => submit b
  | .keyup keyCode => if keyCode = 13 then submit b else skip
  | .opened socket => fun p =>
    if stateOf p socket = .connecting then onopen b (setState p socket .opened) else skip p
  | .message socket data => fun p =>
    if stateOf p socket = .opened then onmessage b data p else skip p
  | .failed socket => fun p =>
    if stateOf p socket = .closed then skip p else onerror b .event (setState p socket .closed)
  | .closed socket => fun p => ⟨setState p socket .closed, [], false⟩

/-- A throw that nobody catches ends the handler, and not the page. -/
def step (b : Browser) (p : Page) (e : Event) : Except Empty (Page × List Effect) :=
  .ok ((dispatch b e p).page, (dispatch b e p).out)

/-- The page after its script was loaded. -/
def startup : Page where
  ws := none
  sockets := []
  content := []
  server := text "ws://localhost:8080"
  nickname := []
  message := text "Hello, I'm new here"

end jrpc.chatpage
