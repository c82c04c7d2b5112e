import Zbroker.Base.Plain
import Zbroker.Queue.SizedQueue

/-!
# The broker: its fields, `init`, `open`, `close` and `rewind`

* `Broker` — the fields of the class, without the mutexes and conditions. The position in the
  stream, `m_last_doc_id`, is an optional ObjectID: the empty string is `none`, and
  `OID::init` reads back what `OID::str` wrote.
* `Broker.reset`, `Broker.new` — `reset()` and the constructor.
* `Broker.init`, `Broker.openOn` — `init` and `open`. Both return the broker as they leave it
  and the exception they end with, if any: a call that throws has stored its fields by then.
* `openOn_new_eq_ok` — **what a successful `open` on a new broker leaves**: the options as they
  were read and defaulted, an empty queue of the given capacity, no position, and every flag as
  `reset` set it apart from `m_inited` and `m_connected`.
* `settings`, `ConfiguredFrom` — what stays of a broker while it is used, and the part of it that
  the options of its `open` determine.
-/

namespace Zbroker

/-- The fields of `broker`. Source: `broker.hpp` -/
structure Broker where
  queue : SizedQueue BSONObj
  jsonDocCache : List BSONObj
  connectionString : String
  docset : String
  /-- `m_last_doc_id`; the empty string is `none`. -/
  lastDocId : Option OID
  options : BSONObj
  host : String
  port : Int
  database : String
  collection : String
  limit : Int
  skip : Int
  queueSize : Int
  readTimeout : Int
  readRetry : Int
  conditions : BSONObj
  fields : BSONObj
  doExit : Bool
  inited : Bool
  connected : Bool
  reachEnd : Bool
  hasFields : Bool
  querying : Bool
  queryDocCount : Nat
  queryCount : Nat
  updateCount : Nat
  deriving DecidableEq, Repr

namespace Broker

/-! ## Construction -/

/-- `reset()`. Source: `broker.cc`, `broker::reset` -/
def reset (b : Broker) : Broker :=
  { b with
    doExit := false, querying := false
    inited := false, connected := false, reachEnd := false
    port := 0, limit := 0, skip := 0, queueSize := 0
    readTimeout := 1, readRetry := 1
    queryDocCount := 0, queryCount := 0, updateCount := 0
    hasFields := false
    lastDocId := none }

/-- The members before the constructor's body: strings and objects empty. The values of the
plain members do not matter, `reset` sets each of them. -/
def blank : Broker where
  queue := SizedQueue.default
  jsonDocCache := []
  connectionString := ""
  docset := ""
  lastDocId := none
  options := []
  host := ""
  port := 0
  database := ""
  collection := ""
  limit := 0
  skip := 0
  queueSize := 0
  readTimeout := 0
  readRetry := 0
  conditions := []
  fields := []
  doExit := false
  inited := false
  connected := false
  reachEnd := false
  hasFields := false
  querying := false
  queryDocCount := 0
  queryCount := 0
  updateCount := 0

/-- The constructor `broker()`. -/
def new : Broker := blank.reset

/-- `close()`. Source: `broker.hpp` -/
def close (b : Broker) : Broker := b.reset

/-! ## `init` -/

/-- The part of `init` that reads the options object into the fields.
Source: `broker.cc`, `broker::init`, down to `m_has_fields` -/
def readOptions (b : Broker) (options : BSONObj) : Broker :=
  let parameters := BSON.getObjectField options "parameters"
  let fields := BSON.getObjectField options "fields"
  { b with
    options := options
    host := BSON.getStringField options "host"
    port := BSON.getIntField options "port"
    database := BSON.getStringField options "database"
    collection := BSON.getStringField options "collection"
    limit := BSON.getIntField parameters "limit"
    skip := BSON.getIntField parameters "skip"
    queueSize := BSON.getIntField parameters "queue_size"
    readTimeout := BSON.getIntField parameters "read_timeout"
    conditions := BSON.getObjectField options "conditions"
    fields := fields
    hasFields := !fields.isEmpty }

/-- The four checks of `init`, in order. -/
def checkOptions (b : Broker) : Option Exn :=
  if b.host.isEmpty then some (.broker "host must not be empty")
  else if b.port = intMin then some (.broker "port must be set")
  else if b.database.isEmpty then some (.broker "database must not be empty")
  else if b.collection.isEmpty then some (.broker "collection must not be empty")
  else none

/-- The default limit. -/
def settleLimit (limit : Int) : Int := if limit = intMin then 1000 else limit

/-- The default skip. -/
def settleSkip (skip : Int) : Int := if skip = intMin then 0 else skip

/-- The default queue size, five pages; the multiplication is one of `int`. -/
def settleQueueSize (limit queueSize : Int) : Int :=
  if queueSize = intMin then wrapInt (limit * 5) else queueSize

/-- The default timeout, also taken for a negative one. -/
def settleTimeout (readTimeout : Int) : Int :=
  if readTimeout = intMin then 1 else if readTimeout < 0 then 1 else readTimeout

/-- The part of `init` after the checks: the defaults, the docset and the queue. -/
def settle (b : Broker) : Broker :=
  let limit := settleLimit b.limit
  let queueSize := settleQueueSize limit b.queueSize
  { b with
    limit := limit
    skip := settleSkip b.skip
    queueSize := queueSize
    readTimeout := settleTimeout b.readTimeout
    docset := b.database ++ "." ++ b.collection
    queue := b.queue.clear.setSize (toSizeT queueSize)
    inited := true }

/-- `init(options)`: the broker it leaves, and the exception it ends with.
Source: `broker.cc`, `broker::init` -/
def init (b : Broker) (options : Option BSONObj) : Broker × Option Exn :=
  if b.inited then (b, none)
  else if b.options.isEmpty && options.isNone then
    (b, some (.assertion "!(m_options.isEmpty() && options == NULL )"))
  else
    let r := b.readOptions (options.getD b.options)
    match r.checkOptions with
    | some e => (r, some e)
    | none => (r.settle, none)

/-! ## `open` -/

/-- The text `open` prints with `"%s:%d"`. -/
def connectionText (b : Broker) : String := b.host ++ ":" ++ toString b.port

/-- The text and its terminating zero fit the buffer of `m_host.size() + 10` bytes. -/
def connectionTextFits (b : Broker) : Bool :=
  decide (b.connectionText.utf8ByteSize + 1 ≤ b.host.utf8ByteSize + 10)

/-- `open(options)`, where `connect` is the outcome of connecting to a host and port: an error
message, or none. Source: `broker.cc`, `broker::open` -/
def openOn (connect : String → Option String) (b : Broker) (options : Option BSONObj) :
    Broker × Option Exn :=
  match b.init options with
  | (r, some e) => (r, some e)
  | (r, none) =>
      if r.connectionTextFits then
        let r := { r with connectionString := r.connectionText }
        match connect r.connectionText with
        | some errmsg => (r, some (.broker errmsg))
        | none => ({ r with connected := true }, none)
      else (r, some (.outOfBounds "sprintf(buf.get(),\"%s:%d\",m_host.c_str(),m_port)"))

/-- `check_status()`. Source: `broker.cc`, `broker::check_status` -/
def checkStatus (b : Broker) : Option Exn :=
  if !b.inited then some (.broker "broker not inited")
  else if !b.connected then some (.broker "broker not connected")
  else none

/-- `rewind()`. Source: `broker.cc`, `broker::rewind` -/
def rewind (b : Broker) : Broker := { b with lastDocId := none, reachEnd := false }

/-! ## The configuration -/

/-- What stays of a broker while it is used: all but the contents of the queue and the cache, the
position, and the flags and counts of its thread. -/
def settings (b : Broker) : Broker :=
  { b with
    queue := b.queue.clear, jsonDocCache := [], lastDocId := none, reachEnd := false
    querying := false, queryDocCount := 0, queryCount := 0, updateCount := 0 }

/-- Brokers with the same settings are inited alike. -/
theorem inited_eq_of_settings_eq {b b' : Broker} (h : b'.settings = b.settings) :
    b'.inited = b.inited := by
  have hinited : b'.settings.inited = b.settings.inited := by rw [h]
  exact hinited

/-- Brokers with the same settings are connected alike. -/
theorem connected_eq_of_settings_eq {b b' : Broker} (h : b'.settings = b.settings) :
    b'.connected = b.connected := by
  have hconnected : b'.settings.connected = b.settings.connected := by rw [h]
  exact hconnected

/-- The broker keeps its settings, or is closed. -/
def Keeps (b b' : Broker) : Prop :=
  b'.settings = b.settings ∨ b'.inited = false ∧ b'.connected = false

/-- A broker that is inited exactly if it is connected stays so. -/
theorem Keeps.inited_eq {b b' : Broker} (h : b.Keeps b') (hb : b.inited = b.connected) :
    b'.inited = b'.connected := by
  rcases h with heq | ⟨hinited, hconnected⟩
  · rw [inited_eq_of_settings_eq heq, connected_eq_of_settings_eq heq, hb]
  · rw [hinited, hconnected]

/-- A broker that is still connected was so, and has the same settings. -/
theorem Keeps.settings_eq {b b' : Broker} (h : b.Keeps b') (hb : b'.connected = true) :
    b'.settings = b.settings ∧ b.connected = true := by
  rcases h with heq | ⟨-, hconnected⟩
  · exact ⟨heq, by rw [← connected_eq_of_settings_eq heq, hb]⟩
  · rw [hb] at hconnected
    cases hconnected

/-- The docset, the conditions, the fields and the paging options are those of the options object,
with the defaults of `init`. -/
structure ConfiguredFrom (options : BSONObj) (b : Broker) : Prop where
  docset : b.docset =
    BSON.getStringField options "database" ++ "." ++ BSON.getStringField options "collection"
  conditions : b.conditions = BSON.getObjectField options "conditions"
  fields : b.fields = BSON.getObjectField options "fields"
  hasFields : b.hasFields = !b.fields.isEmpty
  limit : b.limit =
    settleLimit (BSON.getIntField (BSON.getObjectField options "parameters") "limit")
  skip : b.skip =
    settleSkip (BSON.getIntField (BSON.getObjectField options "parameters") "skip")
  queueSize : b.queueSize = settleQueueSize b.limit
    (BSON.getIntField (BSON.getObjectField options "parameters") "queue_size")
  room : b.queue.limitSize = toSizeT b.queueSize

/-- The configuration is part of the settings. -/
theorem ConfiguredFrom.of_settings_eq {options : BSONObj} {b b' : Broker}
    (h : b.ConfiguredFrom options) (heq : b'.settings = b.settings) :
    b'.ConfiguredFrom options := by
  have hsettings : ∀ b : Broker, b.ConfiguredFrom options ↔ b.settings.ConfiguredFrom options :=
    fun b => ⟨fun h => ⟨h.1, h.2, h.3, h.4, h.5, h.6, h.7, h.8⟩,
      fun h => ⟨h.1, h.2, h.3, h.4, h.5, h.6, h.7, h.8⟩⟩
  rw [hsettings, heq, ← hsettings]
  exact h

/-! ## A successful open -/

/-- `init` of a broker that is not inited. -/
theorem init_of_not_inited {b : Broker} (hb : b.inited = false) (options : BSONObj) :
    b.init (some options) =
      match (b.readOptions options).checkOptions with
      | some e => (b.readOptions options, some e)
      | none => ((b.readOptions options).settle, none) := by
  rw [init, hb, if_neg Bool.false_ne_true, if_neg (by simp)]
  rfl

section openOn

variable {connect : String → Option String} {b r : Broker} {options : Option BSONObj}

/-- An `open` whose `init` throws. -/
theorem openOn_of_init_error {e : Exn} (h : b.init options = (r, some e)) :
    b.openOn connect options = (r, some e) := by
  rw [openOn, h]

/-- An `open` whose connection text does not fit its buffer. -/
theorem openOn_of_not_fits (h : b.init options = (r, none)) (hfits : r.connectionTextFits = false) :
    b.openOn connect options =
      (r, some (.outOfBounds "sprintf(buf.get(),\"%s:%d\",m_host.c_str(),m_port)")) := by
  rw [openOn, h]
  simp only [hfits]
  rfl

/-- The text is made of the host and the port alone. -/
theorem connectionText_update (r : Broker) (text : String) :
    ({ r with connectionString := text } : Broker).connectionText = r.connectionText := rfl

/-- An `open` that connects. -/
theorem openOn_of_connect (h : b.init options = (r, none)) (hfits : r.connectionTextFits = true)
    (hconnect : connect r.connectionText = none) : b.openOn connect options =
      ({ r with connectionString := r.connectionText, connected := true }, none) := by
  rw [openOn, h]
  simp only [hfits, if_true, connectionText_update, hconnect]

/-- An `open` whose connect fails. -/
theorem openOn_of_connect_error (h : b.init options = (r, none))
    (hfits : r.connectionTextFits = true) {errmsg : String}
    (hconnect : connect r.connectionText = some errmsg) : b.openOn connect options =
      ({ r with connectionString := r.connectionText }, some (.broker errmsg)) := by
  rw [openOn, h]
  simp only [hfits, if_true, connectionText_update, hconnect]

/-- An `open` that ends well is one that connects. -/
theorem openOn_eq_ok {f : Broker} (h : b.openOn connect options = (f, none)) :
    ∃ r, b.init options = (r, none) ∧ r.connectionTextFits = true ∧
      connect r.connectionText = none ∧
      f = { r with connectionString := r.connectionText, connected := true } := by
  rcases hinit : b.init options with ⟨r, _ | e⟩
  · cases hfits : r.connectionTextFits with
    | false =>
        rw [openOn_of_not_fits hinit hfits] at h
        cases h
    | true =>
        rcases hconnect : connect r.connectionText with _ | errmsg
        · rw [openOn_of_connect hinit hfits hconnect] at h
          cases h
          exact ⟨r, rfl, hfits, hconnect, rfl⟩
        · rw [openOn_of_connect_error hinit hfits hconnect] at h
          cases h
  · rw [openOn_of_init_error hinit] at h
    cases h

end openOn

/-- **A successful `open` of a broker that is not inited** configures it from the options. -/
theorem configuredFrom_of_openOn {connect : String → Option String} {options : BSONObj}
    {b r : Broker} (hinited : b.inited = false)
    (h : b.openOn connect (some options) = (r, none)) :
    r.ConfiguredFrom options ∧ r.inited = true ∧ r.connected = true := by
  obtain ⟨f, hinit, -, -, rfl⟩ := openOn_eq_ok h
  rw [init_of_not_inited hinited] at hinit
  rcases hcheck : (b.readOptions options).checkOptions with _ | e
  · rw [hcheck] at hinit
    cases hinit
    exact ⟨⟨rfl, rfl, rfl, rfl, rfl, rfl, rfl, rfl⟩, rfl, rfl⟩
  · rw [hcheck] at hinit
    cases hinit

/-- A successful `init` of a new broker stored the options, found nothing to object to, and
settled the defaults. -/
theorem init_new_eq_ok {options : BSONObj} {b : Broker}
    (h : new.init (some options) = (b, none)) :
    (new.readOptions options).checkOptions = none ∧ b = (new.readOptions options).settle := by
  rw [init_of_not_inited rfl] at h
  cases hc : (new.readOptions options).checkOptions with
  | some e => simp [hc] at h
  | none =>
      simp only [hc, Prod.mk.injEq, and_true] at h
      exact ⟨rfl, h.symm⟩

/-- **A successful `open` of a new broker.** It leaves the settled options and the connection
text, connected. -/
theorem openOn_new_eq_ok {connect : String → Option String} {options : BSONObj} {b : Broker}
    (h : new.openOn connect (some options) = (b, none)) :
    b = { (new.readOptions options).settle with
          connectionString := (new.readOptions options).settle.connectionText
          connected := true } := by
  obtain ⟨r, hinit, -, -, rfl⟩ := openOn_eq_ok h
  obtain ⟨-, rfl⟩ := init_new_eq_ok hinit
  rfl

/-! ## What `open` accepts -/

/-- The options have what `init` asks for. -/
def Complete (options : BSONObj) : Prop :=
  BSON.getStringField options "host" ≠ "" ∧ BSON.getIntField options "port" ≠ intMin ∧
    BSON.getStringField options "database" ≠ "" ∧ BSON.getStringField options "collection" ≠ ""

instance (options : BSONObj) : Decidable (Complete options) := by
  unfold Complete
  infer_instance

/-- The buffer of `open` has room for the port: eight characters. -/
def PortFits (port : Int) : Prop := (toString port).utf8ByteSize ≤ 8

instance (port : Int) : Decidable (PortFits port) := inferInstanceAs (Decidable (_ ≤ _))

/-- `open` accepts the options; a broker that is inited keeps those it has. -/
def Opens (b : Broker) (options : BSONObj) : Prop :=
  if b.inited then PortFits b.port
  else Complete options ∧ PortFits (BSON.getIntField options "port")

instance (b : Broker) (options : BSONObj) : Decidable (b.Opens options) := by
  unfold Opens
  infer_instance

/-- The checks pass exactly if the options are complete. -/
theorem checkOptions_readOptions_eq_none_iff (b : Broker) (options : BSONObj) :
    (b.readOptions options).checkOptions = none ↔ Complete options := by
  unfold checkOptions
  simp only [readOptions, String.isEmpty_iff, Complete]
  split_ifs <;> simp_all

/-- The text fits exactly if the port does. -/
theorem connectionTextFits_iff (b : Broker) : b.connectionTextFits = true ↔ PortFits b.port := by
  have hcolon : (":" : String).utf8ByteSize = 1 := rfl
  unfold connectionTextFits connectionText PortFits
  rw [decide_eq_true_iff, String.utf8ByteSize_append, String.utf8ByteSize_append, hcolon]
  omega

/-- After `init`, `open` ends well exactly when the port fits its buffer, if MongoDB can be
reached. -/
theorem openOn_of_init {b r : Broker} {options : Option BSONObj} (h : b.init options = (r, none)) :
    (b.openOn (fun _ => none) options).2 = none ↔ PortFits r.port := by
  rw [← connectionTextFits_iff, openOn, h]
  dsimp only
  split_ifs with hfits <;> simp [hfits]

/-- **When an `open` succeeds**, if MongoDB can be reached. -/
theorem openOn_eq_none_iff (b : Broker) (options : BSONObj) :
    (b.openOn (fun _ => none) (some options)).2 = none ↔ b.Opens options := by
  unfold Opens
  split_ifs with hinited
  · exact openOn_of_init (by rw [init, if_pos hinited])
  · have hinit := init_of_not_inited (Bool.eq_false_iff.mpr hinited) options
    rw [← checkOptions_readOptions_eq_none_iff b options]
    rcases hcheck : (b.readOptions options).checkOptions with _ | e
    · rw [hcheck] at hinit
      exact (openOn_of_init hinit).trans (and_iff_right rfl).symm
    · rw [openOn, hinit, hcheck]
      simp

/-- The parts of the state in which every freshly opened broker agrees. -/
structure Fresh (b : Broker) : Prop where
  queue : b.queue.queue = []
  lastDocId : b.lastDocId = none
  doExit : b.doExit = false
  inited : b.inited = true
  connected : b.connected = true
  reachEnd : b.reachEnd = false
  querying : b.querying = false
  readRetry : b.readRetry = 1

/-- A session on a collection `zbroker.broker` with the given paging options, for
evaluations. -/
def sampleOptions (skip limit queueSize : Int) : BSONObj :=
  [("host", .str "localhost"), ("port", .int 27017), ("database", .str "zbroker"),
    ("collection", .str "broker"), ("conditions", .obj [("brand", .str "Nokia")]),
    ("parameters", .obj
      [("skip", .int skip), ("limit", .int limit), ("queue_size", .int queueSize)])]

/-- The broker opened with the sample options. -/
def sampleBroker (skip limit queueSize : Int) : Broker :=
  (new.openOn (fun _ => none) (some (sampleOptions skip limit queueSize))).1

/-- A broker that has been opened is fresh. -/
theorem fresh_of_openOn {connect : String → Option String} {options : BSONObj} {b : Broker}
    (h : new.openOn connect (some options) = (b, none)) : b.Fresh := by
  rw [openOn_new_eq_ok h]
  exact ⟨rfl, rfl, rfl, rfl, rfl, rfl, rfl, rfl⟩

end Broker

end Zbroker
