import Efdi.Tak.Ip1
import Efdi.Tracks.Handoff

/-!
# The table of the NFFI feed and its threads

`NffiFeed`.  A method runs in a thread as a list of tasks: a section under the lock is one task,
and a `sendall` is a task for each of its partial writes.  The subscriber thread reports tracks, the
main thread sends the table again, the accepting thread and one thread for each outgoing
connection add clients.  A run is any list of events: a thread starts a method, takes its next step,
or its `sendall` fails.
-/

namespace Efdi.Tak

open Tracks

/-- A client's socket. -/
abbrev Client := Nat

inductive Thread where
  | subscriber
  | main
  | accept
  | connect (n : Nat)
deriving DecidableEq

/-- The methods that are called from outside. -/
inductive Call where
  | update (track : Track) (now : Rat)
  | refresh (now : Rat)
  | addClient (client : Client) (now : Rat)
  | drop (client : Client)

/-- Which thread calls which method. -/
def Thread.calls : Thread → Call → Bool
  | .subscriber, .update _ _ => true
  | .main, .refresh _ => true
  | .accept, .addClient _ _ => true
  | .connect _, .addClient _ _ => true
  | .connect _, .drop _ => true
  | _, _ => false

/-- A message, and which of the reports it was built from. -/
structure Message where
  uid : String
  report : Nat
  bytes : List UInt8
deriving DecidableEq

/-- What a thread has to do. -/
inductive Task where
  /-- `update`, down to the end of its section under the lock. -/
  | store (track : Track) (now : Rat)
  /-- `self.messages()` of `refresh`. -/
  | list (now : Rat)
  /-- The section under the lock of `add_client`. -/
  | append (client : Client) (now : Rat)
  /-- `self.messages()` of `add_client`. -/
  | listTo (client : Client) (now : Rat)
  /-- The section under the lock of `_send`. -/
  | take (message : Message)
  /-- `client.sendall` and what is left of the message.  An error ends `add_client`. -/
  | write (client : Client) (message : Message) (rest : List UInt8) (last : Bool)
  /-- The section under the lock of `_drop`. -/
  | drop (client : Client)
  /-- `client.close()`. -/
  | close (client : Client)

/-- What the feed is made with. -/
structure FeedConfig where
  /-- The message of a track, with its frame. -/
  build : Track → Rat → Except String (Option (List UInt8))
  /-- `now - seen > self._stale_s`. -/
  stale : Rat → Rat → Bool

structure Feed where
  /-- `_tracks`. -/
  tracks : PyDict String (Rat × Message)
  /-- `_clients`. -/
  clients : List Client
  /-- The messages of the reports so far.  The code does not keep them. -/
  reports : List Message
  /-- The bytes that were written to a client. -/
  written : Client → List UInt8
  closed : Client → Bool
  tasks : Thread → List Task

def Feed.init : Feed := ⟨PyDict.empty, [], [], fun _ => [], fun _ => false, fun _ => []⟩

/-- The tracks that are not stale. -/
def Feed.fresh (cfg : FeedConfig) (s : Feed) (now : Rat) : PyDict String (Rat × Message) :=
  s.tracks.filter fun _ entry => !cfg.stale now entry.1

/-- `messages`. -/
def messages (tracks : PyDict String (Rat × Message)) : List Message :=
  tracks.entries.map fun entry => entry.2.2

/-- A `sendall` of a whole message. -/
def Task.send (message : Message) (last : Bool) (client : Client) : Task :=
  .write client message message.bytes last

variable (py : PyText) (cfg : FeedConfig)

/-- A thread is left with other tasks. -/
def Feed.tasked (s : Feed) (t : Thread) (tasks : List Task) : Feed :=
  { s with tasks := Function.update s.tasks t tasks }

/-- The section of `update` under the lock, and what the thread sends then.  A builder that raises
ends the call. -/
def Feed.store (s : Feed) (track : Track) (now : Rat) : Feed × List Task :=
  match cfg.build track now with
  | .error _ => (s, [])
  | .ok built =>
    let uid := textOr py track "uid" ""
    if truthy (track.field "_delete") then ({ s with tracks := s.tracks.pop uid }, [])
    else
      match built with
      | none => (s, [])
      | some bytes =>
        let message : Message := ⟨uid, s.reports.length, bytes⟩
        ({ s with tracks := s.tracks.set uid (now, message)
                  reports := s.reports ++ [message] }, [.take message])

/-- The first task of a call. -/
def Call.task : Call → Task
  | .update track now => .store track now
  | .refresh now => .list now
  | .addClient client now => .append client now
  | .drop client => .drop client

inductive FeedEvent where
  | call (thread : Thread) (call : Call)
  /-- The next step of a thread.  A write takes `count` bytes. -/
  | advance (thread : Thread) (count : Nat)
  /-- `OSError` in the `sendall` of a thread. -/
  | fail (thread : Thread)

/-- A task without its writes: the state behind it, and the tasks that it leaves. -/
def Feed.perform (s : Feed) : Task → Feed × List Task
  | .store track now => s.store py cfg track now
  | .list now => ({ s with tracks := s.fresh cfg now }, (messages (s.fresh cfg now)).map .take)
  | .append client now => ({ s with clients := s.clients ++ [client] }, [.listTo client now])
  | .listTo client now =>
    ({ s with tracks := s.fresh cfg now },
      (messages (s.fresh cfg now)).map fun message => .send message true client)
  | .take message => (s, s.clients.map (.send message false))
  | .drop client => ({ s with clients := s.clients.erase client }, [.close client])
  | .close client => ({ s with closed := Function.update s.closed client true }, [])
  | .write client message rest last => (s, [.write client message rest last])

/-- A partial write of at least one byte, where one is left and the socket is open. -/
def Feed.write (s : Feed) (t : Thread) (client : Client) (message : Message) (rest : List UInt8)
    (last : Bool) (tail : List Task) (count : Nat) : Feed :=
  if rest = [] then s.tasked t tail
  else if s.closed client || count = 0 || rest.length < count then s
  else
    let s := { s with
      written := Function.update s.written client (s.written client ++ rest.take count) }
    s.tasked t (if rest.drop count = [] then tail
      else .write client message (rest.drop count) last :: tail)

/-- What an event does.  One that is not possible does nothing. -/
def Feed.step (s : Feed) : FeedEvent → Feed
  | .call t call => if s.tasks t = [] ∧ t.calls call = true then s.tasked t [call.task] else s
  | .advance t count =>
    match s.tasks t with
    | [] => s
    | .write client message rest last :: tail => s.write t client message rest last tail count
    | task :: tail =>
      let (s', tasks) := s.perform py cfg task
      s'.tasked t (tasks ++ tail)
  | .fail t =>
    match s.tasks t with
    | .write client _ _ last :: tail => s.tasked t (.drop client :: if last then [] else tail)
    | _ => s

end Efdi.Tak
