import Tide.Proofs.Grammar.Onward
import Tide.Tree.Node

/-!
# Traces of overlays

Reading a program meets overlay directives, and now and then something takes the ones met so far: a
function that follows them, or a statement of their own when no function does.  A trace keeps what
happened and where, in the order of the source.  It also keeps which part of it stood in the default
clause of a switch or match, because walking the program meets that part after the other clauses.
-/

namespace Tide

/-- What takes the overlays that stand before it, with these overlays. -/
inductive Taker where
  /-- A function, method or routine. -/
  | function (line : Nat) (flavor : FunctionFlavor) (name : String) (overlays : List Overlay)
  /-- A statement for overlays that no function follows. -/
  | statement (line : Nat) (overlays : List Overlay)
  deriving DecidableEq

def Taker.overlays : Taker → List Overlay
  | function _ _ _ overlays | statement _ overlays => overlays

/-- What happens to overlays while a program is read. -/
inductive Event where
  /-- A directive is read at `start`.  After it, and the separators behind it, comes `rest`. -/
  | directive (start : Cursor) (overlay : Overlay) (rest : Cursor)
  /-- All overlays that were kept are taken, by a function that starts at `place` or by a statement
  that ends there. -/
  | taken (place : Cursor) (taker : Taker)

namespace Event

def overlay? : Event → Option Overlay
  | directive _ overlay _ => some overlay
  | taken _ _ => none

def taker? : Event → Option Taker
  | directive _ _ _ => none
  | taken _ taker => some taker

/-- Where the event begins. -/
def start : Event → Cursor
  | directive start _ _ => start
  | taken place _ => place

/-- Where reading goes on after the event. -/
def rest : Event → Cursor
  | directive _ _ rest => rest
  | taken place _ => place

/-- The overlays of the directives that were read, in the order of the log. -/
def directives (log : List Event) : List Overlay := log.filterMap overlay?

/-- What took overlays, in the order of the log. -/
def takers (log : List Event) : List Taker := log.filterMap taker?

@[simp]
theorem directives_append (first second : List Event) :
    directives (first ++ second) = directives first ++ directives second :=
  List.filterMap_append

@[simp]
theorem takers_append (first second : List Event) :
    takers (first ++ second) = takers first ++ takers second :=
  List.filterMap_append

theorem directives_taken (place : Cursor) (taker : Taker) (log : List Event) :
    directives (.taken place taker :: log) = directives log := rfl

theorem takers_taken (place : Cursor) (taker : Taker) (log : List Event) :
    takers (.taken place taker :: log) = taker :: takers log := rfl

/-- A directive is read from tokens of its own. -/
def ReadsOn (event : Event) : Prop :=
  event.start.Onward event.rest ∧
    (event.overlay?.isSome → event.rest.tokens.length < event.start.tokens.length)

end Event

/-! ## Logs -/

/-- The events stand one after another between two places of the source. -/
inductive InSource : (first : Cursor) → List Event → (last : Cursor) → Prop
  | nil {first last : Cursor} (honward : first.Onward last) : InSource first [] last
  | cons {first last : Cursor} {event : Event} {log : List Event}
      (honward : first.Onward event.start) (hreads : event.ReadsOn)
      (hlog : InSource event.rest log last) : InSource first (event :: log) last

namespace InSource

variable {first middle last : Cursor} {log more : List Event}

theorem of_onward (honward : first.Onward middle) (hlog : InSource middle log last) :
    InSource first log last := by
  cases hlog with
  | nil hlast => exact .nil (honward.trans hlast)
  | cons hstart hreads hlog => exact .cons (honward.trans hstart) hreads hlog

theorem append (hlog : InSource first log middle) (hmore : InSource middle more last) :
    InSource first (log ++ more) last := by
  induction hlog with
  | nil honward => exact hmore.of_onward honward
  | cons honward hreads hlog ih => exact .cons honward hreads (ih hmore)

theorem to_onward (hlog : InSource first log middle) (honward : middle.Onward last) :
    InSource first log last := by
  have happend := hlog.append (.nil honward)
  rwa [List.append_nil] at happend

end InSource

/-- Reads a directive and the separators behind it. -/
def Parser.directive (fuel : Nat) : Parser Overlay := do
  let overlay ← overlay fuel
  skipSeparators
  return overlay

/-- A run of directives from `start` on, with nothing but separators between them, and `rest` behind
it.  The events are those of reading it. -/
inductive Run : (start : Cursor) → List Overlay → (rest : Cursor) → List Event → Prop
  | nil (place : Cursor) : Run place [] place []
  | cons {start next rest : Cursor} {overlay : Overlay} {run : List Overlay} {log : List Event}
      (hword : start.head.isKeyword .overlay = true)
      (hread : ∃ fuel, Parser.directive fuel start = .ok overlay next)
      (hrun : Run next run rest log) :
      Run start (overlay :: run) rest (.directive start overlay next :: log)

/-- Every directive of the log belongs to a run that is taken whole, either by the function that
starts right behind the run, or by one statement when neither a function nor another directive
starts there. -/
inductive HandedOver : List Event → Prop
  | nil : HandedOver []
  | toFunction {start place : Cursor} {run : List Overlay} {directives log : List Event}
      {line : Nat} {flavor : FunctionFlavor} {name : String}
      (hrun : Run start run place directives) (hplace : place.head.startsFunction = true)
      (hlog : HandedOver log) :
      HandedOver (directives ++ .taken place (.function line flavor name run) :: log)
  | toStatement {start place : Cursor} {run : List Overlay} {directives log : List Event}
      {line : Nat} (hrun : Run start run place directives) (hnonempty : run ≠ [])
      (hdirective : place.head.isKeyword .overlay = false)
      (hfunction : place.head.startsFunction = false) (hlog : HandedOver log) :
      HandedOver (directives ++ .taken place (.statement line run) :: log)

namespace Run

variable {start rest next : Cursor} {run : List Overlay} {log : List Event} {overlay : Overlay}

theorem snoc (hrun : Run start run rest log) (hword : rest.head.isKeyword .overlay = true)
    (hread : ∃ fuel, Parser.directive fuel rest = .ok overlay next) :
    Run start (run ++ [overlay]) next (log ++ [.directive rest overlay next]) := by
  induction hrun with
  | nil place => exact .cons hword hread (.nil next)
  | cons hfirst hfirstRead hrun ih => exact .cons hfirst hfirstRead (ih hword hread)

theorem directives (hrun : Run start run rest log) : Event.directives log = run := by
  induction hrun with
  | nil place => rfl
  | cons hword hread hrun ih => exact congrArg _ ih

theorem takers (hrun : Run start run rest log) : Event.takers log = [] := by
  induction hrun with
  | nil place => rfl
  | cons hword hread hrun ih => exact ih

end Run

namespace HandedOver

variable {log more : List Event}

theorem append (hlog : HandedOver log) (hmore : HandedOver more) : HandedOver (log ++ more) := by
  induction hlog with
  | nil => exact hmore
  | toFunction hrun hplace hlog ih =>
      rw [List.append_assoc, List.cons_append]
      exact .toFunction hrun hplace ih
  | toStatement hrun hnonempty hdirective hfunction hlog ih =>
      rw [List.append_assoc, List.cons_append]
      exact .toStatement hrun hnonempty hdirective hfunction ih

/-- The overlays that were taken are those that were read. -/
theorem flatMap_overlays (hlog : HandedOver log) :
    (Event.takers log).flatMap Taker.overlays = Event.directives log := by
  induction hlog with
  | nil => rfl
  | toFunction hrun hplace hlog ih | toStatement hrun hnonempty hdirective hfunction hlog ih =>
      rw [Event.takers_append, hrun.takers, Event.takers_taken, Event.directives_append,
        hrun.directives, Event.directives_taken, ← ih]
      rfl

end HandedOver

/-! ## Reading one directive -/

theorem Parser.passes_directive (fuel : Nat) : Passes (directive fuel) := by
  refine .bind (passes_overlay fuel) fun overlay => ?_
  exact .bind movesOn_skipSeparators fun _ => .pure _

theorem Run.onward {start rest : Cursor} {run : List Overlay} {log : List Event}
    (hrun : Run start run rest log) : start.Onward rest := by
  induction hrun with
  | nil place => exact .refl place
  | cons hword hread hrun ih =>
      obtain ⟨fuel, hread⟩ := hread
      exact (Parser.passes_directive fuel _ _ _ hread).onward.trans ih

/-- The directives of a run stand one after another in the source. -/
theorem Run.inSource {start rest : Cursor} {run : List Overlay} {log : List Event}
    (hrun : Run start run rest log) (hfinish : start.finish.kind = .finish) :
    InSource start log rest := by
  induction hrun with
  | nil place => exact .nil (.refl place)
  | cons hword hread hrun ih =>
      obtain ⟨fuel, hread⟩ := hread
      obtain ⟨honward, hshorter⟩ := Parser.passes_directive fuel _ _ _ hread
      refine .cons (.refl _) ⟨honward, fun _ => ?_⟩ (ih (honward.finish ▸ hfinish))
      exact hshorter (Cursor.tokens_ne_nil hfinish (Token.kind_ne_finish_of_isKeyword hword))

/-! ## Traces -/

/-- What happened to overlays while something was read, in the order of the source. -/
inductive Trace where
  | done
  | event (event : Event)
  | seq (first second : Trace)
  /-- A statement, with the overlays that were kept when it started and when it ended. -/
  | statement (before after : List Overlay) (inside : Trace)
  /-- A default clause. -/
  | fallback (body : Trace)
  /-- The clauses of a switch or match. -/
  | choice (clauses : Trace)

namespace Trace

/-- Everything that happened, in the order of the source. -/
def events : Trace → List Event
  | done => []
  | event found => [found]
  | seq first second => first.events ++ second.events
  | statement _ _ inside => inside.events
  | fallback body => body.events
  | choice clauses => clauses.events

mutual

/-- What happened, less what is held back to the end of the clauses around it.  Behind its last
clause a switch or match has what was held back in it. -/
def met : Trace → List Event
  | done => []
  | event found => [found]
  | seq first second => first.met ++ second.met
  | statement _ _ inside => inside.met
  | fallback _ => []
  | choice clauses => clauses.met ++ clauses.heldBack

/-- What happened in a default clause of the clauses around it. -/
def heldBack : Trace → List Event
  | done => []
  | event _ => []
  | seq first second => first.heldBack ++ second.heldBack
  | statement _ _ inside => inside.heldBack
  | fallback body => body.met ++ body.heldBack
  | choice _ => []

end

/-- Everything that happened, with default clauses behind the other clauses of the same switch or
match. -/
def rearranged (trace : Trace) : List Event :=
  trace.met ++ trace.heldBack

/-- How many default clauses the clauses around the trace get from it. -/
def fallbacks : Trace → Nat
  | done => 0
  | event _ => 0
  | seq first second => first.fallbacks + second.fallbacks
  | statement _ _ inside => inside.fallbacks
  | fallback _ => 1
  | choice _ => 0

/-- No switch or match has more than one default clause. -/
def OneFallback : Trace → Prop
  | done => True
  | event _ => True
  | seq first second => first.OneFallback ∧ second.OneFallback
  | statement _ _ inside => inside.OneFallback
  | fallback body => body.OneFallback
  | choice clauses => clauses.fallbacks ≤ 1 ∧ clauses.OneFallback

/-- No overlay is kept at the start or at the end of a statement. -/
def Clear : Trace → Prop
  | done => True
  | event _ => True
  | seq first second => first.Clear ∧ second.Clear
  | statement before after inside => before = [] ∧ after = [] ∧ inside.Clear
  | fallback body => body.Clear
  | choice clauses => clauses.Clear

/-- In no switch or match does a directive of another clause stand behind one of the default
clause. -/
def InOrder : Trace → Prop
  | done => True
  | event _ => True
  | seq first second => first.InOrder ∧ second.InOrder ∧
      (Event.directives first.heldBack = [] ∨ Event.directives second.met = [])
  | statement _ _ inside => inside.InOrder
  | fallback body => body.InOrder
  | choice clauses => clauses.InOrder

instance decidableOneFallback : (trace : Trace) → Decidable trace.OneFallback
  | done | event _ => inferInstanceAs (Decidable True)
  | seq first second =>
    have := decidableOneFallback first
    have := decidableOneFallback second
    inferInstanceAs (Decidable (_ ∧ _))
  | statement _ _ inside => decidableOneFallback inside
  | fallback body => decidableOneFallback body
  | choice clauses =>
    have := decidableOneFallback clauses
    inferInstanceAs (Decidable (_ ∧ _))

instance decidableInOrder : (trace : Trace) → Decidable trace.InOrder
  | done | event _ => inferInstanceAs (Decidable True)
  | seq first second =>
    have := decidableInOrder first
    have := decidableInOrder second
    inferInstanceAs (Decidable (_ ∧ _ ∧ _))
  | statement _ _ inside => decidableInOrder inside
  | fallback body => decidableInOrder body
  | choice clauses => decidableInOrder clauses

/-- Moving default clauses back loses and doubles nothing. -/
theorem rearranged_perm (trace : Trace) : trace.rearranged.Perm trace.events := by
  induction trace with
  | done => exact .refl _
  | event found => exact .refl _
  | statement before after inside ih => exact ih
  | fallback body ih => exact ih
  | choice clauses ih =>
      rw [rearranged, met, heldBack, List.append_nil]
      exact ih
  | seq first second hfirst hsecond =>
      have hswap : (seq first second).rearranged.Perm (first.rearranged ++ second.rearranged) := by
        simp only [rearranged, met, heldBack, List.append_assoc]
        apply List.Perm.append_left
        rw [← List.append_assoc, ← List.append_assoc]
        exact List.perm_append_comm.append_right second.heldBack
      exact hswap.trans (hfirst.append hsecond)

/-- Where no directive stands behind one of a default clause, moving default clauses back leaves the
directives in the order of the source. -/
theorem directives_rearranged {trace : Trace} (horder : trace.InOrder) :
    Event.directives trace.rearranged = Event.directives trace.events := by
  induction trace with
  | done => rfl
  | event found => rfl
  | statement before after inside ih => exact ih horder
  | fallback body ih => exact ih horder
  | choice clauses ih =>
      rw [rearranged, met, heldBack, List.append_nil]
      exact ih horder
  | seq first second hfirst hsecond =>
      obtain ⟨hfirstOrder, hsecondOrder, hempty⟩ := horder
      have hfirst := hfirst hfirstOrder
      have hsecond := hsecond hsecondOrder
      simp only [rearranged, Event.directives_append] at hfirst hsecond
      simp only [rearranged, met, heldBack, events, Event.directives_append, ← hfirst, ← hsecond]
      rcases hempty with hempty | hempty <;> simp [hempty]

/-- The trace followed by some events. -/
def append (trace : Trace) (log : List Event) : Trace :=
  log.foldl (fun trace found => trace.seq (.event found)) trace

section

variable (trace : Trace) (log : List Event)

theorem append_cons (found : Event) :
    trace.append (found :: log) = (trace.seq (.event found)).append log := rfl

theorem append_snoc (found : Event) :
    trace.append (log ++ [found]) = (trace.append log).seq (.event found) := by
  rw [append, List.foldl_append]
  rfl

theorem events_append : (trace.append log).events = trace.events ++ log := by
  induction log generalizing trace with
  | nil => exact (List.append_nil _).symm
  | cons found log ih =>
      rw [append_cons, ih, events, events, List.append_assoc]
      rfl

theorem met_append : (trace.append log).met = trace.met ++ log := by
  induction log generalizing trace with
  | nil => exact (List.append_nil _).symm
  | cons found log ih =>
      rw [append_cons, ih, met, met, List.append_assoc]
      rfl

theorem heldBack_append : (trace.append log).heldBack = trace.heldBack := by
  induction log generalizing trace with
  | nil => rfl
  | cons found log ih => rw [append_cons, ih, heldBack, heldBack, List.append_nil]

theorem fallbacks_append : (trace.append log).fallbacks = trace.fallbacks := by
  induction log generalizing trace with
  | nil => rfl
  | cons found log ih => rw [append_cons, ih, fallbacks, fallbacks, Nat.add_zero]

theorem oneFallback_append : (trace.append log).OneFallback ↔ trace.OneFallback := by
  induction log generalizing trace with
  | nil => rfl
  | cons found log ih => rw [append_cons, ih, OneFallback, OneFallback, and_true]

theorem clear_append : (trace.append log).Clear ↔ trace.Clear := by
  induction log generalizing trace with
  | nil => rfl
  | cons found log ih => rw [append_cons, ih, Clear, Clear, and_true]

end

/-! ## Accounts -/

/-- The trace is that of reading from `first` to `last`, where `takers` were met and each of `held`
stood in a default clause.  That a tree has all of these is known where no switch or match has more
than one default clause, since a later one replaces an earlier one. -/
structure Accounts (trace : Trace) (first last : Cursor) (takers : List Taker)
    (held : List (List Taker)) : Prop where
  clear : trace.Clear
  inSource : InSource first trace.events last
  events : HandedOver trace.events
  met : HandedOver trace.met
  heldBack : HandedOver trace.heldBack
  fallbacks : trace.fallbacks = held.length
  takers : trace.OneFallback →
    Event.takers trace.met = takers ∧ Event.takers trace.heldBack = held.flatten

namespace Accounts

variable {trace more : Trace} {first middle last : Cursor} {takers moreTakers : List Taker}
  {held moreHeld : List (List Taker)}

theorem done (honward : first.Onward last) : Accounts .done first last [] [] where
  clear := trivial
  inSource := .nil honward
  events := .nil
  met := .nil
  heldBack := .nil
  fallbacks := rfl
  takers _ := ⟨rfl, rfl⟩

theorem to_onward (htrace : trace.Accounts first middle takers held)
    (honward : middle.Onward last) : trace.Accounts first last takers held :=
  { htrace with inSource := htrace.inSource.to_onward honward }

theorem seq (htrace : trace.Accounts first middle takers held)
    (hmore : more.Accounts middle last moreTakers moreHeld) :
    (trace.seq more).Accounts first last (takers ++ moreTakers) (held ++ moreHeld) where
  clear := ⟨htrace.clear, hmore.clear⟩
  inSource := htrace.inSource.append hmore.inSource
  events := htrace.events.append hmore.events
  met := htrace.met.append hmore.met
  heldBack := htrace.heldBack.append hmore.heldBack
  fallbacks := by rw [Trace.fallbacks, htrace.fallbacks, hmore.fallbacks, List.length_append]
  takers hone := by
    obtain ⟨hmet, hheld⟩ := htrace.takers hone.1
    obtain ⟨hmoreMet, hmoreHeld⟩ := hmore.takers hone.2
    simp only [Trace.met, Trace.heldBack, Event.takers_append, hmet, hheld, hmoreMet, hmoreHeld,
      List.flatten_append, and_self]

theorem statement (hinside : trace.Accounts first last takers held) :
    (Trace.statement [] [] trace).Accounts first last takers held :=
  { hinside with clear := ⟨rfl, rfl, hinside.clear⟩ }

theorem fallback (hbody : trace.Accounts first last takers []) :
    (Trace.fallback trace).Accounts first last [] [takers] where
  clear := hbody.clear
  inSource := hbody.inSource
  events := hbody.events
  met := .nil
  heldBack := hbody.met.append hbody.heldBack
  fallbacks := rfl
  takers hone := by
    obtain ⟨hmet, hheld⟩ := hbody.takers hone
    rw [Trace.heldBack, Event.takers_append, hmet, hheld]
    exact ⟨rfl, rfl⟩

/-- The default clause that is read last is the one that counts. -/
theorem choice (hclauses : trace.Accounts first last takers held) :
    (Trace.choice trace).Accounts first last (takers ++ held.getLastD []) [] where
  clear := hclauses.clear
  inSource := hclauses.inSource
  events := hclauses.events
  met := hclauses.met.append hclauses.heldBack
  heldBack := .nil
  fallbacks := rfl
  takers hone := by
    obtain ⟨hmet, hheld⟩ := hclauses.takers hone.2
    have hlength : held.length ≤ 1 := hclauses.fallbacks ▸ hone.1
    have hlast : held.flatten = held.getLastD [] := by
      rcases held with _ | ⟨body, _ | ⟨next, rest⟩⟩
      · rfl
      · exact List.append_nil body
      · simp at hlength
    rw [Trace.met, Event.takers_append, hmet, hheld, hlast]
    exact ⟨rfl, rfl⟩

/-- Events are added once all overlays in them are handed over. -/
theorem append {log : List Event} (htrace : trace.Accounts first middle takers held)
    (hlog : HandedOver log) (hsource : InSource middle log last) :
    (trace.append log).Accounts first last (takers ++ Event.takers log) held where
  clear := (trace.clear_append log).mpr htrace.clear
  inSource := by
    rw [events_append]
    exact htrace.inSource.append hsource
  events := by
    rw [events_append]
    exact htrace.events.append hlog
  met := by
    rw [met_append]
    exact htrace.met.append hlog
  heldBack := by
    rw [heldBack_append]
    exact htrace.heldBack
  fallbacks := by
    rw [fallbacks_append]
    exact htrace.fallbacks
  takers hone := by
    obtain ⟨hmet, hheld⟩ := htrace.takers ((trace.oneFallback_append log).mp hone)
    rw [met_append, Event.takers_append, hmet, heldBack_append, hheld]
    exact ⟨rfl, rfl⟩

end Accounts

end Trace

end Tide
