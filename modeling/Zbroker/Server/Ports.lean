import Zbroker.Found.Parallel
import Zbroker.Server.Sharing

/-!
# The program: a server for each port

`main` makes an `asio_handler` for each of its arguments, and all of them run on one `io_service`. Each
has a table of processors of its own, and each connection looks its processor up in the table of the
handler that accepted it, `m_handler`.

* `Program`, `step` — the handlers side by side. An exception that leaves one of them ends them all.
* `processorOf` — the processor that a connection uses: the table that it is in, and its id there.
* **`processor_eq_iff`**: in every reachable state connections share a processor exactly if they are
  connections of one port and their OPEN bodies are equal, and of the brokers of a processor the one is
  connected that its bodies are for.

A run of the program is, for each port, a run of its server on the events of that port, and what the
sharing of sessions says of each server (`sharing_run`) is put together.
-/

namespace Zbroker

open Found.Transition

/-- The list `servers` of `main`. Source: `zbroker_asio.cc`, `main` -/
abbrev Program := List Server

namespace Program

/-- An event of the program: the place of a handler in the list, and an event of that handler. -/
abbrev Action := Nat × Server.Action

/-- In front of `io_service.run()`: a handler for each port. -/
def start (ports : Nat) : Program := List.replicate ports Server.start

/-- `io_service.run()`: an event of one of the handlers. -/
def step (M : Mongo) (hash : BSONObj → String) : Program → Action → Option Program :=
  sideStep (Server.step M hash) fun s => s.fault ≠ none

/-- `m_processor` of the connection `c` of a handler: the handler whose table it was found in, which is
the connection's own, and its id there. -/
def processorOf (i c : Nat) (t : Program) : Option (Nat × String) :=
  (t[i]?).bind fun s => (s.connections[c]?).bind fun conn => conn.processor.map fun id => (i, id)

section sharing

variable {M : Mongo} {hash : BSONObj → String} {ports : Nat} {as : List Action} {t : Program}
  {s : Server} {i : Nat}

/-- Each server of a program is in a state of its own runs. -/
theorem run_server (hrun : run (step M hash) (start ports) as = some t) (hs : t[i]? = some s) :
    run (Server.step M hash) Server.start (ownOf i as) = some s := by
  have hi := getElem_of_run hrun i
  rw [hs, start, List.getElem?_replicate] at hi
  split_ifs at hi
  · exact hi.symm
  · cases hi

/-- The processor of a connection, in the server of its port. -/
theorem processorOf_eq_some {c : Nat} {r : Nat × String} (h : t.processorOf i c = some r) :
    ∃ s conn id, t[i]? = some s ∧ s.connections[c]? = some conn ∧ conn.processor = some id ∧
      r = (i, id) := by
  obtain ⟨s, hs, h⟩ := Option.bind_eq_some_iff.mp h
  obtain ⟨conn, hconn, h⟩ := Option.bind_eq_some_iff.mp h
  obtain ⟨id, hid, rfl⟩ := Option.map_eq_some_iff.mp h
  exact ⟨s, conn, id, hs, hconn, hid, rfl⟩

/-- It was found by the hash of the OPEN body of the connection. -/
theorem openBody_of_processorOf (hrun : run (step M hash) (start ports) as = some t)
    (hfault : ∀ s ∈ t, s.fault = none) {c : Nat} {r : Nat × String}
    (h : t.processorOf i c = some r) :
    ∃ body, Server.openBody c (ownOf i as) = some body ∧ r = (i, hash body) := by
  obtain ⟨s, conn, id, hs, hconn, hid, rfl⟩ := processorOf_eq_some h
  have hsharing := Server.sharing_run (run_server hrun hs) (hfault s (List.mem_of_getElem? hs))
  obtain ⟨body, hbody, rfl⟩ := hsharing.processor c conn id hconn hid
  exact ⟨body, hbody, rfl⟩

end sharing

/-- **Sharing.** In every reachable state of the program that no exception has ended, if no two bodies
have the same hash: two connections that have a processor have the same one exactly if they are
connections of the same port and were opened with equal bodies; and a broker that is connected is
configured from such a body, sent to its port, and is the one for its purpose. -/
theorem processor_eq_iff (M : Mongo) (hash : BSONObj → String) (ports : Nat) (as : List Action)
    (t : Program) (hrun : run (step M hash) (start ports) as = some t)
    (hfault : ∀ s ∈ t, s.fault = none)
    (hinj : Set.InjOn hash {body | ∃ i c, Server.openBody c (ownOf i as) = some body}) :
    (∀ (i j c d : Nat) (r r' : Nat × String), t.processorOf i c = some r →
      t.processorOf j d = some r' →
      ∃ body body', Server.openBody c (ownOf i as) = some body ∧
        Server.openBody d (ownOf j as) = some body' ∧ (r = r' ↔ i = j ∧ body = body')) ∧
    ∀ i s, t[i]? = some s → ∀ id, Server.Dedicated hash (ownOf i as) id (s.processors id) := by
  constructor
  · intro i j c d r r' hr hr'
    obtain ⟨body, hbody, rfl⟩ := openBody_of_processorOf hrun hfault hr
    obtain ⟨body', hbody', rfl⟩ := openBody_of_processorOf hrun hfault hr'
    refine ⟨body, body', hbody, hbody', ?_⟩
    rw [Prod.mk.injEq]
    refine and_congr_right fun _ => ⟨?_, congrArg hash⟩
    intro hhash
    exact hinj ⟨i, c, hbody⟩ ⟨j, d, hbody'⟩ hhash
  · intro i s hs
    have hsharing := Server.sharing_run (run_server hrun hs) (hfault s (List.mem_of_getElem? hs))
    apply hsharing.dedicated
    refine hinj.mono ?_
    rintro body ⟨c, hc⟩
    exact ⟨i, c, hc⟩

/-! ## Two ports -/

/-- Three connections of the first port: two open the same options and close them, so that the thread
ends, and one opens other options; then a fourth one opens the first options again. A connection of the
second port opens them too. -/
def sampleTwoPorts : List Action :=
  [(0, .accept), (0, .accept), (0, .accept), (1, .accept),
    (0, .packet 0 (some (Server.sampleOpen 1)) none []),
    (0, .packet 1 (some (Server.sampleOpen 1)) none []),
    (0, .packet 2 (some (Server.sampleOpen 2)) none []),
    (1, .packet 0 (some (Server.sampleOpen 1)) none []),
    (0, .packet 0 (some (Server.sampleRequest 101)) none []),
    (0, .packet 1 (some (Server.sampleRequest 101)) none []), (0, .accept),
    (0, .packet 3 (some (Server.sampleOpen 1)) none [])]

/-- Its OPEN bodies. -/
theorem openBody_sampleTwoPorts {i c : Nat} {body : BSONObj}
    (h : Server.openBody c (ownOf i sampleTwoPorts) = some body) :
    body = (parseRequest (Server.sampleOpen 1)).2.2 ∨
      body = (parseRequest (Server.sampleOpen 2)).2.2 := by
  obtain ⟨a, hmem, ha⟩ := List.exists_of_findSome?_eq_some h
  obtain ⟨e, he, hown⟩ := List.mem_filterMap.mp hmem
  split_ifs at hown
  cases hown
  simp only [sampleTwoPorts, List.mem_cons, List.not_mem_nil, or_false] at he
  rcases he with rfl | rfl | rfl | rfl | rfl | rfl | rfl | rfl | rfl | rfl | rfl | rfl
  all_goals simp only [Server.Action.openBody, reduceCtorEq] at ha
  all_goals split_ifs at ha with hopen
  all_goals first | exact absurd hopen.2 (by decide) | cases ha
  all_goals first | exact Or.inl rfl | exact Or.inr rfl

/-- The sample bodies have different hashes. -/
theorem injOn_sampleTwoPorts : Set.InjOn Server.purposeHash
    {body | ∃ i c, Server.openBody c (ownOf i sampleTwoPorts) = some body} := by
  rintro body ⟨i, c, hc⟩ body' ⟨j, d, hd⟩ heq
  rcases openBody_sampleTwoPorts hc with rfl | rfl <;>
    rcases openBody_sampleTwoPorts hd with rfl | rfl
  · rfl
  · exact absurd heq (by decide +kernel)
  · exact absurd heq (by decide +kernel)
  · rfl

/-- The connection that opens the options again, when their session was closed, has the processor of
the first one. -/
theorem processor_eq_iff_sample : ∃ t r,
    run (step Mongo.plain Server.purposeHash) (start 2) sampleTwoPorts = some t ∧
      t.processorOf 0 0 = some r ∧ t.processorOf 0 3 = some r ∧
      (∃ body, Server.openBody 0 (ownOf 0 sampleTwoPorts) = some body ∧
        Server.openBody 3 (ownOf 0 sampleTwoPorts) = some body) ∧
      ∀ i s, t[i]? = some s → ∀ id,
        Server.Dedicated Server.purposeHash (ownOf i sampleTwoPorts) id (s.processors id) := by
  obtain ⟨t, ht, hfault, hone, hfour⟩ := @exists_run_of_any _ _ (step Mongo.plain Server.purposeHash)
    (start 2) sampleTwoPorts
    (fun t => (∀ s ∈ t, s.fault = none) ∧
      t.processorOf 0 0 = some (0, Server.purposeHash (parseRequest (Server.sampleOpen 1)).2.2) ∧
      t.processorOf 0 3 = some (0, Server.purposeHash (parseRequest (Server.sampleOpen 1)).2.2)) _
    (by decide +kernel)
  obtain ⟨hsame, hdedicated⟩ := processor_eq_iff Mongo.plain Server.purposeHash 2 sampleTwoPorts t ht
    hfault injOn_sampleTwoPorts
  obtain ⟨body, body', hbody, hbody', hiff⟩ := hsame 0 0 0 3 _ _ hone hfour
  obtain ⟨-, rfl⟩ := hiff.mp rfl
  exact ⟨t, _, ht, hone, hfour, ⟨body, hbody, hbody'⟩, hdedicated⟩

/-- The first connections of the two ports have opened the same options, and have different
processors. -/
theorem not_processor_eq_sample : ∃ t body r r',
    run (step Mongo.plain Server.purposeHash) (start 2) sampleTwoPorts = some t ∧
      (∀ s ∈ t, s.fault = none) ∧
      Server.openBody 0 (ownOf 0 sampleTwoPorts) = some body ∧
      Server.openBody 0 (ownOf 1 sampleTwoPorts) = some body ∧
      t.processorOf 0 0 = some r ∧ t.processorOf 1 0 = some r' ∧ r ≠ r' := by
  obtain ⟨t, ht, hfault, hone, htwo⟩ := @exists_run_of_any _ _ (step Mongo.plain Server.purposeHash)
    (start 2) sampleTwoPorts
    (fun t => (∀ s ∈ t, s.fault = none) ∧
      t.processorOf 0 0 = some (0, Server.purposeHash (parseRequest (Server.sampleOpen 1)).2.2) ∧
      t.processorOf 1 0 = some (1, Server.purposeHash (parseRequest (Server.sampleOpen 1)).2.2)) _
    (by decide +kernel)
  exact ⟨t, _, _, _, ht, hfault, rfl, rfl, hone, htwo, by simp⟩

end Program

end Zbroker
