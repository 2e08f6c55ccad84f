import BugFeed.Proofs.Informer.Server

/-!
# An informer and the server that it searches

A world is an informer, the server that it searches, and the search that is under way. The server
may take its time: it looks its records up at one moment and the informer hears the answer at a
later one, unless it has given the search up. In between and at any other time the server changes
its records. A run of a world is a list of cues like a run of an informer, in any order.

The server is honest: an answer is a fault or consists of just the records that the search asks
for. It changes nothing in a second that it has told of, nor in the second that an empty list
takes for its version.
-/

namespace BugFeed

set_option autoImplicit false

/-- Whether a search asks for a bug: one that changed in the second of its cutoff or later. -/
def SearchArgs.wants (args : SearchArgs) (f : BugInfo) : Bool :=
  match args.changedSince with
  | some t => t.unixSeconds ≤ f.second
  | none => true

/-- A search under way: what it asks for, when it began, and the answer once there is one. -/
structure Request where
  args : SearchArgs
  began : Instant
  answer : Option (Except TransportFault SearchResponse) := none

/-- The second that an answer tells of, if any: that of its latest change, or that of the beginning
of the search if it is an empty list. -/
def Request.tellsOf? (request : Request) : Except TransportFault SearchResponse → Option Int
  | .error _ => none
  | .ok found =>
    match found.latestChange? with
    | some latest => some latest.time.unixSeconds
    | none => if request.args.changedSince.isNone then some request.began.unixSeconds else none

/-- The server after an answer told of a second, if it did. -/
def Server.tellOf (v : Server) : Option Int → Server
  | some second => v.tell second
  | none => v

/-- Whether an answer to a search is honest. -/
def Server.Honest (v : Server) (args : SearchArgs) : Except TransportFault SearchResponse → Prop
  | .error _ => True
  | .ok found => found.bugs.Perm (v.records.filter args.wants)

instance (v : Server) (args : SearchArgs) (response : Except TransportFault SearchResponse) :
    Decidable (v.Honest args response) :=
  match response with
  | .error _ => .isTrue trivial
  | .ok _ => inferInstanceAs (Decidable (List.Perm _ _))

/-- An informer, the server that it searches, the search under way, how many searches have begun,
and how many had begun when the server last changed a record. -/
structure World where
  informer : Informer
  server : Server
  request : Option Request := none
  searches : Nat := 0
  changed : Nat := 0

namespace World

/-- One thing that happens in a world. -/
inductive Cue where
  /-- The informer moves. -/
  | move (now : Nat) (present : Instant)
  /-- The lifetime of its watch ends. -/
  | expire (now : Nat)
  /-- Its watch goes on with its work. -/
  | proceed (now : Nat)
  /-- Someone asks the informer to shut down. -/
  | shutDown
  /-- The server finds the answer to the search. -/
  | reply (response : Except TransportFault SearchResponse)
  /-- The informer hears the answer. -/
  | hear (now : Nat) (present : Instant)
  /-- The server changes or adds a record. -/
  | change (record : BugInfo)

/-- Whether a search has begun since the server last changed a record. -/
def Settled (w : World) : Prop := w.changed < w.searches

/-- The world after the informer did something, and began a search or not. -/
def act (w : World) (present : Instant) (i : Informer) : Option SearchArgs → World
  | some args =>
    { w with
      informer := i
      request := some { args := args, began := present }
      searches := w.searches + 1 }
  | none => { w with informer := i }

/-- The world after the informer followed a cue, if it can. -/
def act? (w : World) (cue : Informer.Cue) (present : Instant) : Option World :=
  (w.informer.follow? cue).map fun (i, args) => w.act present i args

/-- The world after a cue, if it can follow it. -/
def follow? (w : World) : Cue → Option World
  | .move now present => if present.Ordinary then w.act? (.move now present) present else none
  | .expire now => w.act? (.expire now) .epoch
  | .proceed now => w.act? (.proceed now) .epoch
  | .shutDown => w.act? .shutDown .epoch
  | .reply response =>
    match w.request with
    | some request =>
      if request.answer.isNone ∧ w.server.Honest request.args response then
        some { w with
          server := w.server.tellOf (request.tellsOf? response)
          request := some { request with answer := some response } }
      else none
    | none => none
  | .hear now present =>
    match w.request.bind Request.answer with
    | some response =>
      some { w with informer := w.informer.answer now present response, request := none }
    | none => none
  | .change record =>
    if record.lastChange.Ordinary ∧ w.server.floor < record.second then
      some { w with server := w.server.change record, changed := w.searches }
    else none

/-- The world after a run, if it can follow all its cues. -/
def run? (w : World) : List Cue → Option World
  | [] => some w
  | cue :: cues => (w.follow? cue).bind fun t => t.run? cues

/-- A world in which an informer that shows all bugs has just been started. -/
def opened (config : WatchConfig) (labels : Catalog String) (policy : BackoffPolicy) (now : Nat)
    (stopping : Bool) (server : Server) : World where
  informer := .opened { config := config } labels policy now stopping
  server := server

/-- What every cue preserves, every run preserves. -/
theorem run?_preserves {P : World → Prop}
    (step : ∀ {w t : World} {cue : Cue}, w.follow? cue = some t → P w → P t)
    {w t : World} {cues : List Cue} (run : w.run? cues = some t) (hw : P w) : P t := by
  induction cues generalizing w with
  | nil =>
      cases run
      exact hw
  | cons cue cues ih =>
      obtain ⟨u, first, rest⟩ := Option.bind_eq_some_iff.mp run
      exact ih rest (step first hw)

theorem run?_cons {w t : World} {cue : Cue} (first : w.follow? cue = some t) (cues : List Cue) :
    w.run? (cue :: cues) = t.run? cues := by
  rw [run?, first, Option.bind_some]

/-- An honest answer that is found and heard at once. -/
theorem run?_answer {w : World} {request : Request} {i : Informer}
    {response : Except TransportFault SearchResponse} (asked : w.request = some request)
    (waits : request.answer = none) (honest : w.server.Honest request.args response) (now : Nat)
    (present : Instant) (heard : w.informer.answer now present response = i) (cues : List Cue) :
    w.run? (.reply response :: .hear now present :: cues) =
      ({ w with
        informer := i
        server := w.server.tellOf (request.tellsOf? response)
        request := none } : World).run? cues := by
  have found : w.follow? (.reply response) = some { w with
      server := w.server.tellOf (request.tellsOf? response)
      request := some { request with answer := some response } } := by
    simp only [follow?, asked]
    exact if_pos ⟨by rw [waits]; rfl, honest⟩
  refine (run?_cons found _).trans (run?_cons ?_ cues)
  rw [← heard]
  rfl

/-! ## What a cue does -/

/-- Everything that a cue does to a world. -/
inductive Step (w : World) : World → Prop where
  /-- The informer or its watch does something. -/
  | act {now : Nat} {present : Instant} {i : Informer} {args : Option SearchArgs}
      (ordinary : present.Ordinary) (act : w.informer.Act now present i args) :
      Step w (w.act present i args)
  /-- The informer is asked to shut down. -/
  | shutDown : Step w { w with informer := w.informer.shutDown }
  /-- The server finds an answer. -/
  | reply {request : Request} {response : Except TransportFault SearchResponse}
      (asked : w.request = some request) (honest : w.server.Honest request.args response) :
      Step w { w with
        server := w.server.tellOf (request.tellsOf? response)
        request := some { request with answer := some response } }
  /-- The informer hears the answer. -/
  | hear {request : Request} {response : Except TransportFault SearchResponse} {now : Nat}
      {present : Instant} (asked : w.request = some request)
      (answered : request.answer = some response) :
      Step w { w with informer := w.informer.answer now present response, request := none }
  /-- The server changes or adds a record. -/
  | change {record : BugInfo} (ordinary : record.lastChange.Ordinary)
      (later : w.server.floor < record.second) :
      Step w { w with server := w.server.change record, changed := w.searches }

variable {w t : World}

theorem ordinary_epoch : Instant.epoch.Ordinary := by decide

theorem step_of_act {cue : Informer.Cue} {present : Instant} (ordinary : present.Ordinary)
    (acts : ∀ {i : Informer} {args : Option SearchArgs}, w.informer.follow? cue = some (i, args) →
      ∃ now, w.informer.Act now present i args)
    (h : w.act? cue present = some t) : Step w t := by
  obtain ⟨⟨i, args⟩, followed, same⟩ := Option.map_eq_some_iff.mp h
  cases same
  obtain ⟨now, act⟩ := acts followed
  exact .act ordinary act

/-- **What a cue does to a world is one of its steps.** -/
theorem step_of_follow {cue : Cue} (h : w.follow? cue = some t) : Step w t := by
  cases cue with
  | move now present =>
      simp only [follow?] at h
      split at h
      · rename_i ordinary
        exact step_of_act ordinary (fun followed => ⟨now, Informer.act_of_move followed⟩) h
      · cases h
  | expire now =>
      exact step_of_act ordinary_epoch
        (fun followed => ⟨now, Informer.act_of_expire_watch followed⟩) h
  | proceed now =>
      exact step_of_act ordinary_epoch
        (fun followed => ⟨now, Informer.act_of_proceed_watch followed⟩) h
  | shutDown =>
      cases h
      exact .shutDown
  | reply response =>
      simp only [follow?] at h
      split at h
      · rename_i request asked
        split at h
        · rename_i allowed
          cases h
          exact .reply asked allowed.2
        · cases h
      · cases h
  | hear now present =>
      simp only [follow?] at h
      split at h
      · rename_i response answered
        cases h
        obtain ⟨request, asked, found⟩ := Option.bind_eq_some_iff.mp answered
        exact .hear asked found
      · cases h
  | change record =>
      simp only [follow?] at h
      split at h
      · rename_i allowed
        cases h
        exact .change allowed.1 allowed.2
      · cases h

end World

end BugFeed
