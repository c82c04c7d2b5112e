import Zbroker.Broker.Basic

/-!
# `asio_processor`: what the requests do to a processor

A processor is shared by all connections that opened the same options. It has a read broker and
a write broker, a thread for each of them once it is open, and counts its opens.

* `Command`, `parseRequest` — the commands, and how a request names its own.
* `Processor` — the fields of the class that the requests read.
* `Processor.openFor`, `close`, `term`, `rewind` — the members of the same names. What READ and
  WRITE do to the queues is in the session modules.
* `Processor.Keeps` — the brokers of a processor keep their settings, or are closed.
-/

namespace Zbroker

/-- The commands; a request may name any integer. Source: `protocol.h`, `Command` -/
inductive Command where
  | openCmd
  | closeCmd
  | readCmd
  | writeCmd
  | rewindCmd
  | unknown (n : Int)
  deriving DecidableEq, Repr

/-- The command with the number. -/
def Command.ofInt (n : Int) : Command :=
  if n = 100 then .openCmd
  else if n = 101 then .closeCmd
  else if n = 102 then .readCmd
  else if n = 103 then .writeCmd
  else if n = 106 then .rewindCmd
  else .unknown n

/-- `parse_request` of a JSON object: whether its number is between `MinCmd` and `MaxCmd`, the
command, and the body, which stays empty if it is not.
Source: `asio_processor.cc`, `asio_processor::parse_request` -/
def parseRequest (cmdObj : BSONObj) : Bool × Command × BSONObj :=
  let n := BSON.getIntField cmdObj "cmd"
  if n ≤ 106 ∧ 100 ≤ n then (true, .ofInt n, BSON.getObjectField cmdObj "body")
  else (false, .ofInt n, [])

/-- A command that is one has a valid number. -/
theorem parseRequest_of_ne_unknown {cmdObj : BSONObj}
    (h : ∀ n, (parseRequest cmdObj).2.1 ≠ .unknown n) : (parseRequest cmdObj).1 = true := by
  unfold parseRequest at h ⊢
  dsimp only at h ⊢
  split_ifs at h ⊢ with hvalid
  · rfl
  · exfalso
    apply h (BSON.getIntField cmdObj "cmd")
    simp only [Command.ofInt]
    split_ifs <;> first | rfl | omega

/-- A processor. Source: `asio_processor.hpp` -/
structure Processor where
  readBroker : Broker
  writeBroker : Broker
  /-- `m_read_thread` is not `NULL`. -/
  readThread : Bool
  /-- `m_write_thread` is not `NULL`. -/
  writeThread : Bool
  refcount : Nat
  deriving DecidableEq, Repr

namespace Processor

/-- The constructor. -/
def new : Processor := ⟨Broker.new, Broker.new, false, false, 0⟩

/-- `open(p,obj)` for `Read`: the read broker is opened and its thread created, unless it is
connected. -/
def openRead (connect : String → Option String) (obj : BSONObj) (p : Processor) :
    Except Exn Processor :=
  if p.readBroker.connected then .ok p
  else
    match p.readBroker.openOn connect (some obj) with
    | (_, some e) => .error e
    | (b, none) => .ok { p with readBroker := b, readThread := true }

/-- `open(p,obj)` for `Write`. -/
def openWrite (connect : String → Option String) (obj : BSONObj) (p : Processor) :
    Except Exn Processor :=
  if p.writeBroker.connected then .ok p
  else
    match p.writeBroker.openOn connect (some obj) with
    | (_, some e) => .error e
    | (b, none) => .ok { p with writeBroker := b, writeThread := true }

/-- `open(purpose,obj)`: one of the brokers is opened, and the open is counted.
Source: `asio_processor.cc`, `asio_processor::open` -/
def openFor (connect : String → Option String) (purpose : Int) (obj : BSONObj) (p : Processor) :
    Except Exn Processor := do
  let p ← if purpose = 1 then p.openRead connect obj
    else if purpose = 2 then p.openWrite connect obj
    else .error (.literal "invalid Purpose")
  return { p with refcount := p.refcount + 1 }

/-- `term()`: each thread that runs is told to exit and joined, and its broker closed.
Source: `asio_processor.cc`, `asio_processor::term` -/
def term (p : Processor) : Processor :=
  let p := if p.readThread && p.readBroker.connected then
    { p with readThread := false, readBroker := p.readBroker.close } else p
  if p.writeThread && p.writeBroker.connected then
    { p with writeThread := false, writeBroker := p.writeBroker.close } else p

/-- `close()`: the processor after it, and whether it ran `term`.
Source: `asio_processor.cc`, `asio_processor::close` -/
def close (p : Processor) : Processor × Bool :=
  if 1 < p.refcount then ({ p with refcount := p.refcount - 1 }, false)
  else ({ p with refcount := 0 }.term, true)

/-- `do_rewind()`. Source: `asio_processor.cc`, `asio_processor::do_rewind` -/
def rewind (p : Processor) : Processor :=
  if p.readBroker.connected then { p with readBroker := p.readBroker.rewind } else p

/-! ## The count -/

@[simp] theorem refcount_term (p : Processor) : p.term.refcount = p.refcount := by
  unfold term
  dsimp only
  split_ifs <;> rfl

@[simp] theorem refcount_rewind (p : Processor) : p.rewind.refcount = p.refcount := by
  unfold rewind
  split_ifs <;> rfl

/-- A close takes one off the count, which stays at zero. -/
theorem refcount_close (p : Processor) : p.close.1.refcount = p.refcount - 1 := by
  unfold close
  split_ifs with h
  · rfl
  · rw [refcount_term]
    show 0 = p.refcount - 1
    omega

/-- The close that takes the count to zero, or finds it there, runs `term`. -/
theorem close_ran_term (p : Processor) : p.close.2 = true ↔ p.refcount ≤ 1 := by
  unfold close
  split_ifs with h
  · simp
    omega
  · simp
    omega

/-- An open for reading counts nothing itself. -/
theorem refcount_openRead {connect : String → Option String} {obj : BSONObj} {p q : Processor}
    (h : p.openRead connect obj = .ok q) : q.refcount = p.refcount := by
  unfold openRead at h
  split at h
  · cases h
    rfl
  · split at h
    · cases h
    · cases h
      rfl

/-- An open for writing counts nothing itself. -/
theorem refcount_openWrite {connect : String → Option String} {obj : BSONObj} {p q : Processor}
    (h : p.openWrite connect obj = .ok q) : q.refcount = p.refcount := by
  unfold openWrite at h
  split at h
  · cases h
    rfl
  · split at h
    · cases h
    · cases h
      rfl

/-- An open that succeeds adds one to the count. -/
theorem refcount_openFor {connect : String → Option String} {purpose : Int} {obj : BSONObj}
    {p q : Processor} (h : p.openFor connect purpose obj = .ok q) :
    q.refcount = p.refcount + 1 := by
  unfold openFor at h
  split_ifs at h
  · rcases hopen : p.openRead connect obj with e | r
    · rw [hopen] at h
      cases h
    · rw [hopen] at h
      cases h
      rw [← refcount_openRead hopen]
  · rcases hopen : p.openWrite connect obj with e | r
    · rw [hopen] at h
      cases h
    · rw [hopen] at h
      cases h
      rw [← refcount_openWrite hopen]
  · cases h

/-! ## What stays of its brokers -/

/-- Both brokers keep their settings, or are closed. -/
def Keeps (p q : Processor) : Prop :=
  p.readBroker.Keeps q.readBroker ∧ p.writeBroker.Keeps q.writeBroker

/-- A processor keeps what it has. -/
theorem Keeps.refl (p : Processor) : p.Keeps p := ⟨Or.inl rfl, Or.inl rfl⟩

/-- `term` keeps the settings of a broker, or closes it. -/
theorem keeps_term (p : Processor) : p.Keeps p.term := by
  unfold term
  dsimp only
  split_ifs
  · exact ⟨Or.inr ⟨rfl, rfl⟩, Or.inr ⟨rfl, rfl⟩⟩
  · exact ⟨Or.inr ⟨rfl, rfl⟩, Or.inl rfl⟩
  · exact ⟨Or.inl rfl, Or.inr ⟨rfl, rfl⟩⟩
  · exact ⟨Or.inl rfl, Or.inl rfl⟩

/-- `close` keeps the settings of a broker, or closes it. -/
theorem keeps_close (p : Processor) : p.Keeps p.close.1 := by
  unfold close
  split_ifs
  · exact ⟨Or.inl rfl, Or.inl rfl⟩
  · exact keeps_term { p with refcount := 0 }

/-- A REWIND keeps the settings of a broker. -/
theorem keeps_rewind (p : Processor) : p.Keeps p.rewind := by
  unfold rewind
  split_ifs
  · exact ⟨Or.inl rfl, Or.inl rfl⟩
  · exact Keeps.refl p

end Processor

end Zbroker
