import CompileFlags.Answer
import CompileFlags.Stream
import CompileFlags.Text.Character

/-!
# Sessions

A project answers requests, one on each line of an input, with one reply on each line of the output.
Blank lines are passed over, and a line that is no request is refused in its reply. Only an input or
an output that breaks ends a session early.

* `Project.replyTo` is the reply to a line.
* `Project.serve` is the whole session.
-/

namespace CompileFlags

/-- A line without the carriage return at its end, if there is one. -/
def withoutReturn (line : Bytes) : Bytes :=
  if line.getLast? = some 0x0D then line.dropLast else line

/-- The line as a request, or the reason why it is none. -/
def Request.ofLine (line : Bytes) : Except String Request :=
  match Utf8.decode line with
  | .error e => .error ("invalid request: " ++ e.message)
  | .ok text => (Request.ofText text).mapError fun e => "invalid request: " ++ e.message

namespace Project

/-- The reply to a line with a number, with what the log is told of it. -/
def replyTo (p : Project) (number : Nat) (line : Bytes) : Reply × List Event :=
  match Request.ofLine line with
  | .ok r => (.answer (p.answer r), p.answerEvents r)
  | .error reason => (.refusal reason, [.refused number reason])

/-- What is said to a line with a number, or nothing if it is blank. -/
def replyTo? (p : Project) (number : Nat) (line : Bytes) : Option (Reply × List Event) :=
  let line := withoutReturn line
  if line.all Text.isBlankByte then none else some (p.replyTo number line)

/-- Answers lines that follow so many others; `failure` is what comes after them. -/
def serveLines (p : Project) (failure : Option IoError) : Nat → List Bytes → Sink → Run
  | _, [], _ =>
    match failure with
    | none => {}
    | some e => { ending := inContext .readingRequest (.error (.ofCause (.io e))) }
  | before, line :: rest, sink =>
    match p.replyTo? (before + 1) line with
    | none => p.serveLines failure (before + 1) rest sink
    | some (reply, events) =>
      let put := sink.putFlushed (Sink.lineOf reply.written)
      match put.failure with
      | none => (p.serveLines failure (before + 1) rest put.next).after put.taken events
      | some e => { output := put.taken, events, ending := Sink.verdict .writingReply e }

/-- Answers an input. -/
def serve (p : Project) (source : Source) (sink : Sink) : Run :=
  p.serveLines source.failure 0 source.lines sink

end Project

end CompileFlags
