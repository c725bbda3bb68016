import Tide.Proofs.Overlay.Buffer

/-!
# Following a reader with a buffer

A reader with a buffer follows the reader without one if it gives the same values and the same
errors at the same places.  What else is said of it is said of the cursor and the buffer before and
after.  There is one rule for each way to put readers together.
-/

namespace Tide

/-! ## States of the buffer -/

/-- What reading from `first` on has met so far: `takers`, and in default clauses each of `held`. -/
structure Account where
  first : Cursor
  takers : List Taker
  held : List (List Taker)

namespace Account

/-- Nothing is met yet. -/
def empty (first : Cursor) : Account := ⟨first, [], []⟩

def add (account : Account) (takers : List Taker) : Account :=
  { account with takers := account.takers ++ takers }

/-- A default clause holds `takers`. -/
def hold (account : Account) (takers : List Taker) : Account :=
  { account with held := account.held ++ [takers] }

theorem add_nil (account : Account) : account.add [] = account := by
  rw [add, List.append_nil]

theorem add_add (account : Account) (takers more : List Taker) :
    (account.add takers).add more = account.add (takers ++ more) := by
  simp only [add, List.append_assoc]

end Account

/-- Nothing is kept in the buffer, and the trace is that of the account up to the cursor. -/
structure Stable (account : Account) (cursor : Cursor) (buffer : Buffer) : Prop where
  finish : cursor.finish.kind = .finish
  pending : buffer.pending = []
  accounts : buffer.trace.Accounts account.first cursor account.takers account.held

/-- Behind what the account has, clauses were read with `takers` in them.  The default clause that
counts is the one that was read last, and it has `last`. -/
def ClausesRead (account : Account) (takers last : List Taker) (cursor : Cursor)
    (buffer : Buffer) : Prop :=
  ∃ held, Stable ⟨account.first, account.takers ++ takers, held⟩ cursor buffer ∧
    held.getLastD [] = last

/-- The run that ends at the cursor is kept in the buffer, and the trace is that of the account up
to the start of that run. -/
inductive Waiting (account : Account) (run : List Overlay) (cursor : Cursor) : Buffer → Prop
  | intro {trace : Trace} {start : Cursor} {log : List Event}
      (hfinish : cursor.finish.kind = .finish)
      (htrace : trace.Accounts account.first start account.takers account.held)
      (hrun : Run start run cursor log) : Waiting account run cursor ⟨run, trace.append log⟩

section

variable {account other : Account} {cursor place later : Cursor} {run : List Overlay}
  {buffer : Buffer}

theorem Stable.of_eq (hstable : Stable account cursor buffer) (hother : account = other) :
    Stable other cursor buffer :=
  hother ▸ hstable

theorem Stable.onward (hstable : Stable account cursor buffer) (honward : cursor.Onward later) :
    Stable account later buffer :=
  ⟨honward.finish ▸ hstable.finish, hstable.pending, hstable.accounts.to_onward honward⟩

theorem ClausesRead.of_add {takers more last : List Taker}
    (hclauses : ClausesRead (account.add takers) more last cursor buffer) :
    ClausesRead account (takers ++ more) last cursor buffer := by
  obtain ⟨held, hstable, hlast⟩ := hclauses
  refine ⟨held, hstable.of_eq ?_, hlast⟩
  rw [Account.add, List.append_assoc]

theorem Stable.waiting (hstable : Stable account cursor buffer) :
    Waiting account [] cursor buffer := by
  rcases buffer with ⟨pending, trace⟩
  obtain ⟨hfinish, rfl, htrace⟩ := hstable
  exact .intro hfinish htrace (.nil cursor)

theorem Waiting.stable (hwaiting : Waiting account [] cursor buffer) :
    Stable account cursor buffer := by
  rcases hwaiting with ⟨hfinish, htrace, hrun⟩
  cases hrun
  exact ⟨hfinish, rfl, htrace⟩

theorem Waiting.pending (hwaiting : Waiting account run cursor buffer) :
    buffer.pending = run := by
  cases hwaiting
  rfl

/-- Once the run is handed over, nothing is kept. -/
theorem Waiting.handOver {taker : Taker} (hwaiting : Waiting account run place buffer)
    (hhanded : ∀ start log, Run start run place log → HandedOver (log ++ [.taken place taker]))
    (honward : place.Onward cursor) :
    Stable (account.add [taker]) cursor
      ⟨[], buffer.trace.seq (.event (.taken place taker))⟩ := by
  rcases hwaiting with @⟨trace, start, log, hfinish, htrace, hrun⟩
  have hstart : start.finish.kind = .finish := by
    rw [← hrun.onward.finish]
    exact hfinish
  have hsource : InSource start (log ++ [.taken place taker]) cursor :=
    (hrun.inSource hstart).append (.cons (.refl place) ⟨.refl place, nofun⟩ (.nil honward))
  have htakers : Event.takers (log ++ [.taken place taker]) = [taker] := by
    rw [Event.takers_append, hrun.takers]
    rfl
  refine ⟨honward.finish ▸ hfinish, rfl, ?_⟩
  rw [← htakers, ← Trace.append_snoc]
  exact htrace.append (hhanded start log hrun) hsource

/-- A directive makes the run longer. -/
theorem Waiting.directive {overlay : Overlay} {fuel : Nat}
    (hwaiting : Waiting account run cursor buffer)
    (hword : cursor.head.isKeyword .overlay = true)
    (hread : Parser.directive fuel cursor = .ok overlay later) :
    Waiting account (run ++ [overlay]) later
      ⟨buffer.pending ++ [overlay],
        buffer.trace.seq (.event (.directive cursor overlay later))⟩ := by
  rcases hwaiting with ⟨hfinish, htrace, hrun⟩
  rw [← Trace.append_snoc]
  have honward := (Parser.passes_directive fuel _ _ _ hread).onward
  exact .intro (honward.finish ▸ hfinish) htrace (hrun.snoc hword ⟨fuel, hread⟩)

end

namespace Parser

variable {α β : Type}

/-! ## Rules -/

/-- Both results are the same value at the same place, where `post` holds with the buffer, or the
same error. -/
inductive Agrees (post : α → Cursor → Buffer → Prop) :
    EStateM.Result ParseError Cursor (α × Buffer) → EStateM.Result ParseError Cursor α → Prop
  | ok {value : α} {after : Cursor} {buffer : Buffer} (hpost : post value after buffer) :
      Agrees post (.ok (value, buffer) after) (.ok value after)
  | error {error : ParseError} {after : Cursor} :
      Agrees post (.error error after) (.error error after)

/-- From where `pre` holds, the reader with a buffer follows the one without, to where `post`
holds. -/
def Follows (pre : Cursor → Buffer → Prop) (buffered : Buffered α) (reader : Parser α)
    (post : α → Cursor → Buffer → Prop) : Prop :=
  ∀ cursor buffer, pre cursor buffer → Agrees post (buffered buffer cursor) (reader cursor)

namespace Follows

variable {pre middle : Cursor → Buffer → Prop} {post : α → Cursor → Buffer → Prop}
  {buffered : Buffered α} {reader : Parser α}

theorem pure {value : α} (hpost : ∀ cursor buffer, pre cursor buffer → post value cursor buffer) :
    Follows pre (Pure.pure value) (Pure.pure value) post :=
  fun cursor buffer hpre => .ok (hpost cursor buffer hpre)

theorem bind {first : Buffered β} {firstReader : Parser β} {next : β → Buffered α}
    {nextReader : β → Parser α} {between : β → Cursor → Buffer → Prop}
    (hfirst : Follows pre first firstReader between)
    (hnext : ∀ value, Follows (between value) (next value) (nextReader value) post) :
    Follows pre (first >>= next) (firstReader >>= nextReader) post := by
  intro cursor buffer hpre
  have hagrees := hfirst cursor buffer hpre
  simp only [Bind.bind, StateT.bind, EStateM.bind]
  generalize first buffer cursor = left at hagrees
  generalize firstReader cursor = right at hagrees
  cases hagrees with
  | ok hbetween => exact hnext _ _ _ hbetween
  | error => exact .error

theorem weaken (hfollows : Follows middle buffered reader post)
    (hpre : ∀ cursor buffer, pre cursor buffer → middle cursor buffer) :
    Follows pre buffered reader post :=
  fun cursor buffer h => hfollows cursor buffer (hpre cursor buffer h)

/-- What `pre` says of no cursor and buffer may be used. -/
theorem given {fact : Prop} (hfact : ∀ cursor buffer, pre cursor buffer → fact)
    (hfollows : fact → Follows pre buffered reader post) : Follows pre buffered reader post :=
  fun cursor buffer hpre => hfollows (hfact cursor buffer hpre) cursor buffer hpre

theorem ite {condition : Prop} [Decidable condition] {yes no : Buffered α}
    {yesReader noReader : Parser α} (hyes : condition → Follows pre yes yesReader post)
    (hno : ¬condition → Follows pre no noReader post) :
    Follows pre (if condition then yes else no) (if condition then yesReader else noReader)
      post := by
  by_cases hcondition : condition
  · rw [if_pos hcondition, if_pos hcondition]
    exact hyes hcondition
  · rw [if_neg hcondition, if_neg hcondition]
    exact hno hcondition

/-- A reader of the grammar leaves the buffer alone. -/
theorem lift (hpost : ∀ cursor buffer value after, pre cursor buffer →
      reader cursor = .ok value after → post value after buffer) :
    Follows pre (liftM reader) reader post := by
  intro cursor buffer hpre
  have hvalue := hpost cursor buffer
  change Agrees post (EStateM.bind reader (fun value => Pure.pure (value, buffer)) cursor) _
  rw [EStateM.bind]
  cases hread : reader cursor with
  | ok value after => exact .ok (hvalue value after hpre hread)
  | error error after => exact .error

/-- A reader of the grammar keeps what does not depend on how far the cursor is. -/
theorem onward {leaf : Parser β} {next : β → Buffered α} {nextReader : β → Parser α}
    (hpre : ∀ cursor later buffer, pre cursor buffer → cursor.Onward later → pre later buffer)
    (hmoves : MovesOn leaf)
    (hnext : ∀ value, Follows pre (next value) (nextReader value) post) :
    Follows pre (liftM leaf >>= next) (leaf >>= nextReader) post :=
  .bind (.lift fun cursor buffer value after h hread =>
    hpre cursor after buffer h (hmoves cursor value after hread)) hnext

theorem fail (hfails : ∀ cursor, ∃ error, reader cursor = .error error cursor) :
    Follows pre (liftM reader) reader post := by
  refine .lift fun cursor buffer value after hpre hread => ?_
  obtain ⟨error, herror⟩ := hfails cursor
  rw [herror] at hread
  cases hread

/-- A token is looked at. -/
theorem peek {next : Token → Buffered α} {nextReader : Token → Parser α}
    (hnext : ∀ token, Follows (fun cursor buffer => pre cursor buffer ∧ cursor.head = token)
      (next token) (nextReader token) post) :
    Follows pre (liftM Parser.peek >>= next) (Parser.peek >>= nextReader) post := by
  refine .bind (.lift fun cursor buffer token after hpre hread => ?_) hnext
  cases hread
  exact ⟨hpre, rfl⟩

/-- The place is noted, which the reader without a buffer has no need of. -/
theorem here {next : Cursor → Buffered α}
    (hnext : ∀ place, Follows (fun cursor buffer => pre cursor buffer ∧ cursor = place)
      (next place) reader post) :
    Follows pre (liftM Parser.here >>= next) reader post :=
  fun cursor buffer hpre => hnext cursor cursor buffer ⟨hpre, rfl⟩

/-- The buffer is emptied, which the reader without a buffer has no need of. -/
theorem handOver {run : List Overlay} {place : Cursor} {taker : List Overlay → Taker}
    {next : List Overlay → Buffered α}
    (hpre : ∀ cursor buffer, pre cursor buffer → buffer.pending = run ∧
      middle cursor ⟨[], buffer.trace.seq (.event (.taken place (taker run)))⟩)
    (hnext : Follows middle (next run) reader post) :
    Follows pre (Buffered.handOver place taker >>= next) reader post := by
  intro cursor buffer h
  obtain ⟨hpending, hmiddle⟩ := hpre cursor buffer h
  change Agrees post (next buffer.pending ⟨[], buffer.trace.seq
    (.event (.taken place (taker buffer.pending)))⟩ cursor) (reader cursor)
  rw [hpending]
  exact hnext cursor _ hmiddle

section

variable {account : Account}

/-- A reader of the grammar reads between two statements. -/
theorem read {leaf : Parser β} {next : β → Buffered α} {nextReader : β → Parser α}
    (hmoves : MovesOn leaf)
    (hnext : ∀ value, Follows (Stable account) (next value) (nextReader value) post) :
    Follows (Stable account) (liftM leaf >>= next) (leaf >>= nextReader) post :=
  .onward (fun _ _ _ hstable honward => hstable.onward honward) hmoves hnext

theorem done {value : α} {result : α → Account} (hresult : account = result value) :
    Follows (Stable account) (Pure.pure value) (Pure.pure value)
      (fun value => Stable (result value)) :=
  .pure fun _ _ hstable => hstable.of_eq hresult

/-- A part that is traced apart. -/
theorem within {wrap : (before after : Buffer) → Trace}
    {inside : α → Cursor → Cursor → Buffer → Prop}
    (hinside : ∀ place, Follows (Stable (.empty place)) buffered reader (inside · place))
    (hpost : ∀ value place cursor before after, Stable account place before →
      inside value place cursor after →
        post value cursor ⟨after.pending, before.trace.seq (wrap before after)⟩) :
    Follows (Stable account) (Buffered.within wrap buffered) reader post := by
  intro place before hbefore
  have hempty : Stable (.empty place) place ⟨before.pending, .done⟩ :=
    ⟨hbefore.finish, hbefore.pending, .done (.refl place)⟩
  have hagrees := hinside place place _ hempty
  change Agrees post (EStateM.bind (buffered ⟨before.pending, .done⟩) (fun result =>
    Pure.pure (result.1, ⟨result.2.pending, before.trace.seq (wrap before result.2)⟩)) place) _
  rw [EStateM.bind]
  generalize buffered ⟨before.pending, .done⟩ place = left at hagrees
  generalize reader place = right at hagrees
  cases hagrees with
  | ok hafter => exact .ok (hpost _ place _ before _ hbefore hafter)
  | error => exact .error

theorem bracketed {takers : α → List Taker}
    (hinside : ∀ place, Follows (Stable (.empty place)) buffered reader
      (fun value => Stable ((Account.empty place).add (takers value)))) :
    Follows (Stable account) (Buffered.bracketed buffered) reader
      (fun value => Stable (account.add (takers value))) := by
  refine .within hinside fun value place cursor before after hbefore hafter => ?_
  have haccounts := hbefore.accounts.seq hafter.accounts.statement
  refine ⟨hafter.finish, hafter.pending, ?_⟩
  rw [hbefore.pending, hafter.pending]
  simpa only [Account.add, Account.empty, List.append_nil, List.nil_append] using haccounts

theorem fallback {takers : α → List Taker}
    (hinside : ∀ place, Follows (Stable (.empty place)) buffered reader
      (fun value => Stable ((Account.empty place).add (takers value)))) :
    Follows (Stable account) (Buffered.fallback buffered) reader
      (fun value => Stable (account.hold (takers value))) := by
  refine .within hinside fun value place cursor before after hbefore hafter => ?_
  have haccounts := hbefore.accounts.seq hafter.accounts.fallback
  refine ⟨hafter.finish, hafter.pending, ?_⟩
  simpa only [Account.hold, Account.add, Account.empty, List.append_nil, List.nil_append]
    using haccounts

theorem choice {takers last : α → List Taker}
    (hinside : ∀ place, Follows (Stable (.empty place)) buffered reader
      (fun value => ClausesRead (.empty place) (takers value) (last value))) :
    Follows (Stable account) (Buffered.choice buffered) reader
      (fun value => Stable (account.add (takers value ++ last value))) := by
  refine .within hinside fun value place cursor before after hbefore hafter => ?_
  obtain ⟨held, hafter, hlast⟩ := hafter
  have haccounts := hbefore.accounts.seq hafter.accounts.choice
  refine ⟨hafter.finish, hafter.pending, ?_⟩
  simpa only [Account.add, Account.empty, hlast, List.append_nil, List.nil_append] using haccounts

end

end Follows

theorem follows_tooDeep {pre : Cursor → Buffer → Prop} {post : α → Cursor → Buffer → Prop} :
    Follows pre (liftM (tooDeep : Parser α)) tooDeep post :=
  .fail fun _ => ⟨_, rfl⟩

theorem follows_expected {pre : Cursor → Buffer → Prop} {post : α → Cursor → Buffer → Prop}
    (what : Expectation) : Follows pre (liftM (expected what : Parser α)) (expected what) post :=
  .fail fun _ => ⟨_, rfl⟩

end Parser

end Tide
