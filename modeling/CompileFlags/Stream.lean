import CompileFlags.Text.Pieces
import CompileFlags.Traced

/-!
# Input and output that can break

A source is an input that ends, or that breaks after some bytes. A sink is an output that takes
everything, or so many bytes, or so many flushes, and fails from then on. A call that was only
interrupted is made again, so an interruption is no failure.

* `Source.lines` are the lines that can be read: a line that a break cuts is none.
* `Sink.put` offers bytes to a sink, and `Sink.putFlushed` flushes it after them.
-/

namespace CompileFlags

/-- The byte at the end of a line. -/
def newline : UInt8 := 0x0A

/-- An input: the bytes that can be read, and the failure that comes after them, if any. -/
structure Source where
  data : Bytes
  failure : Option IoError := none

namespace Source

/-- An input that breaks after some bytes, or at its end if it is shorter. -/
def breakingAfter (data : Bytes) (count : Nat) (e : IoError) : Source := ⟨data.take count, some e⟩

/-- The lines of an input, without what ends them. -/
def lines (s : Source) : List Bytes :=
  match s.failure with
  | none => terminatedPieces (· == newline) s.data
  | some _ => (pieces (· == newline) s.data).dropLast

end Source

/-- What an output still takes. -/
inductive Sink where
  | unlimited
  /-- So many bytes can be written. -/
  | bytes (left : Nat) (failure : IoError)
  /-- Everything can be written, and so many flushes succeed. -/
  | flushes (left : Nat) (failure : IoError)
  deriving DecidableEq, Repr

/-- What happened to bytes that were offered: those that were taken, the failure if there was one,
and the output afterwards. -/
structure Put where
  taken : Bytes
  failure : Option IoError
  next : Sink
  deriving DecidableEq, Repr

namespace Sink

/-- Writes bytes. -/
def put (bs : Bytes) : Sink → Put
  | bytes left e =>
    if bs.length ≤ left then ⟨bs, none, bytes (left - bs.length) e⟩
    else ⟨bs.take left, some e, bytes 0 e⟩
  | s => ⟨bs, none, s⟩

/-- Writes bytes and flushes. -/
def putFlushed (bs : Bytes) : Sink → Put
  | flushes 0 e => ⟨bs, some e, flushes 0 e⟩
  | flushes (left + 1) e => ⟨bs, none, flushes left e⟩
  | s => s.put bs

/-- A line as bytes. -/
def lineOf (text : String) : Bytes := Utf8.encode text ++ [newline]

/-- What a failed write means: nothing if nobody reads any more. -/
def verdict (context : Context) (e : IoError) : Except Fault Unit :=
  if e.isClosed then .ok () else inContext context (.error (.ofCause (.io e)))

/-- Whether a line was written. It is no fault if it was not because nobody reads any more. -/
def lineResult (p : Put) : Except Fault Bool :=
  match p.failure with
  | none => .ok true
  | some e => (verdict .writingOutput e).map fun _ => false

end Sink

/-- What a run leaves behind: what it wrote, what it told the log, and how it ended. -/
structure Run where
  output : Bytes := []
  events : List Event := []
  ending : Except Fault Unit := .ok ()

namespace Run

/-- A run with something before it. -/
def after (output : Bytes) (events : List Event) (r : Run) : Run :=
  { r with output := output ++ r.output, events := events ++ r.events }

/-- A run that does nothing but fail. -/
def failed (f : Fault) : Run := { ending := .error f }

/-- A run that starts with a step. -/
def ofTraced {α : Type} (t : Traced α) (next : α → Run) : Run :=
  match t.result with
  | .error f => { events := t.events, ending := .error f }
  | .ok a => (next a).after [] t.events

/-- Writes a text at once. Unlike a line, it has to be read. -/
def ofText (text : String) (sink : Sink) : Run :=
  let p := sink.put (Utf8.encode text)
  match p.failure with
  | none => { output := p.taken }
  | some e => { output := p.taken, ending := .error (.ofCause (.io e)) }

/-- Writes lines one after another, until one cannot be written. -/
def ofLines : List String → Sink → Run
  | [], _ => {}
  | line :: rest, sink =>
    let p := sink.put (Sink.lineOf line)
    match p.failure with
    | none => (ofLines rest p.next).after p.taken []
    | some e => { output := p.taken, ending := Sink.verdict .writingOutput e }

end Run

end CompileFlags
