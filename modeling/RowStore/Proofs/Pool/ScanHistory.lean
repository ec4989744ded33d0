import RowStore.Proofs.Pool.InSync
import RowStore.Proofs.Pool.Places

/-!
# A scan among other calls

While a cursor is read, others store, remove and read rows, flush pages and give them up. What the cursor gave and still
has are rows in the order of their places, each of which was there once, and it has every row of the pages behind it
that was there all the time.
-/

namespace RowStore

/-! ## Histories -/

/-- A step of a scan, or a call of somebody else. -/
inductive ScanStep where
  | look
  | take
  | call (call : PoolCall)

inductive ScanAnswer where
  | more (there : Bool)
  | given (row? : Option Row)
  | other (answer : PoolAnswer)
  deriving DecidableEq

def ScanAnswer.row? : ScanAnswer → Option Row
  | .given row? => row?
  | _ => none

namespace TableCursor

def perform (pool : PoolId) : ScanStep → CursorAction ScanAnswer
  | .look => return .more (← hasNext)
  | .take => return .given (← next)
  | .call call => return .other (← onStore (pool.perform call))

/-- Carries out steps in turn, and collects their outcomes and the stores that they leave behind. -/
def play (pool : PoolId) : List ScanStep → TableCursor × Store → List (Except Failure ScanAnswer × Store)
  | [], _ => []
  | step :: steps, s =>
    match perform pool step s with
    | .ok answer s => (.ok answer, s.2) :: play pool steps s
    | .error failure s => (.error failure, s.2) :: play pool steps s

def givenRows (history : List (Except Failure ScanAnswer × Store)) : List Row :=
  history.filterMap fun entry => entry.1.toOption.bind ScanAnswer.row?

end TableCursor

/-- The pool has the row at the place that the row names. -/
def PoolId.Holds (pool : PoolId) (row : Row) (store : Store) : Prop :=
  ∃ id rows, row.id = some id ∧ (pool.get id.page).outcome store = .ok rows ∧ row ∈ rows

variable {pool : PoolId} {tables : Tables} {capacity : Nat} {current : Contents} {store : Store} {file : TableFile}
  {row : Row}

theorem PoolId.Shows.live_of_holds (h : pool.Shows tables capacity current store) (holds : pool.Holds row store) :
    current.Live row := by
  obtain ⟨id, rows, id_eq, rows_eq, row_mem⟩ := holds
  obtain ⟨store', ends, -⟩ := h.get_ok id.page
  rw [ends.eq.1] at rows_eq
  unfold Contents.get at rows_eq
  cases among_eq : TableFile.among tables.files id.page.table with
  | error e =>
    simp only [among_eq] at rows_eq
    cases rows_eq
  | ok file =>
    obtain ⟨mem, table_eq⟩ := TableFile.mem_of_among among_eq
    simp only [among_eq] at rows_eq
    cases here : current.page? id.page with
    | none =>
      simp only [here] at rows_eq
      cases rows_eq
    | some page =>
      simp only [here] at rows_eq
      cases rows_eq
      unfold Contents.page? at here
      rw [← table_eq] at here
      exact (h.sound.live mem (h.length_le mem) here row_mem).1

theorem PoolId.Shows.holds_of_live (h : pool.Shows tables capacity current store) (live : current.Live row)
    {id : RowId} (id_eq : row.id = some id) (mem : file ∈ tables.files) (table_eq : id.page.table = file.id) :
    pool.Holds row store := by
  obtain ⟨id', page, id_eq', page_eq, slot_eq⟩ := live
  cases id_eq.symm.trans id_eq'
  obtain ⟨store', ends, -⟩ := h.get_ok id.page
  refine ⟨id, page.rows, id_eq, ?_, PlainPage.mem_rows slot_eq⟩
  rw [ends.eq.1, Contents.get, table_eq, tables.among_eq mem]
  simp only [page_eq]

/-! ## What a cursor gave and has -/

/-- The rows `seen` are in the order of their places, on pages before `n`. Each was there at some moment, and among them
are all rows of these pages that were there all the time. -/
structure Covers (pool : PoolId) (table : TableId) (moments : List Store) (seen : List Row) (n : Nat) : Prop where
  ordered : seen.Pairwise Row.Precedes
  below : ∀ row ∈ seen, row.PlacedBelow table n
  held : ∀ row ∈ seen, ∃ moment ∈ moments, pool.Holds row moment
  complete : ∀ row, row.PlacedBelow table n → (∀ moment ∈ moments, pool.Holds row moment) → row ∈ seen

namespace Covers

variable {table : TableId} {moments : List Store} {seen : List Row} {n : Nat}

theorem start (pool : PoolId) (table : TableId) (moments : List Store) : Covers pool table moments [] 0 where
  ordered := .nil
  below := fun _ mem => absurd mem List.not_mem_nil
  held := fun _ mem => absurd mem List.not_mem_nil
  complete := by
    rintro row ⟨id, -, -, lt⟩
    exact absurd lt (Nat.not_lt_zero _)

theorem later (h : Covers pool table moments seen n) (moments' : List Store) :
    Covers pool table (moments ++ moments') seen n where
  ordered := h.ordered
  below := h.below
  held := fun row mem => by
    obtain ⟨moment, moment_mem, holds⟩ := h.held row mem
    exact ⟨moment, List.mem_append_left _ moment_mem, holds⟩
  complete := fun row below always =>
    h.complete row below fun moment mem => always moment (List.mem_append_left _ mem)

theorem copied (h : Covers pool file.id moments seen n) (shows : pool.Shows tables capacity current store)
    (mem : file ∈ tables.files) (now : store ∈ moments) {n' : Nat} (forward : n ≤ n') :
    Covers pool file.id moments (seen ++ (current file.id).rowsFrom n n') n' := by
  have copied : ∀ row ∈ (current file.id).rowsFrom n n', current.Live row ∧
      ∃ id, row.id = some id ∧ id.page.table = file.id ∧ n ≤ id.page.number.toNat ∧ id.page.number.toNat < n' := by
    intro row row_mem
    obtain ⟨number, page, le, lt, here, row_mem⟩ := PlainTable.mem_rowsFrom.mp row_mem
    obtain ⟨live, id, id_eq, table_eq, number_eq⟩ := shows.sound.live mem (shows.length_le mem) here row_mem
    exact ⟨live, id, id_eq, table_eq, number_eq ▸ le, number_eq ▸ lt⟩
  constructor
  case ordered =>
    rw [List.pairwise_append]
    refine ⟨h.ordered, shows.sound.precedes mem (shows.length_le mem) n n', ?_⟩
    intro row row_mem other other_mem
    obtain ⟨id, id_eq, table_eq, lt⟩ := h.below row row_mem
    obtain ⟨-, id', id_eq', table_eq', le, -⟩ := copied other other_mem
    refine ⟨id, id', id_eq, id_eq', table_eq.trans table_eq'.symm, .inl ?_⟩
    rw [UInt32.lt_iff_toNat_lt]
    omega
  case below =>
    intro row row_mem
    rcases List.mem_append.mp row_mem with row_mem | row_mem
    · obtain ⟨id, id_eq, table_eq, lt⟩ := h.below row row_mem
      exact ⟨id, id_eq, table_eq, Nat.lt_of_lt_of_le lt forward⟩
    · obtain ⟨-, id, id_eq, table_eq, -, lt⟩ := copied row row_mem
      exact ⟨id, id_eq, table_eq, lt⟩
  case held =>
    intro row row_mem
    rcases List.mem_append.mp row_mem with row_mem | row_mem
    · exact h.held row row_mem
    · obtain ⟨live, id, id_eq, table_eq, -⟩ := copied row row_mem
      exact ⟨store, now, shows.holds_of_live live id_eq mem table_eq⟩
  case complete =>
    rintro row ⟨id, id_eq, table_eq, lt⟩ always
    by_cases before : id.page.number.toNat < n
    · exact List.mem_append_left _ (h.complete row ⟨id, id_eq, table_eq, before⟩ always)
    · have live := shows.live_of_holds (always store now)
      exact List.mem_append_right _ (live.mem_rowsFrom id_eq table_eq (Nat.le_of_not_lt before) lt)

end Covers

/-! ## Steps and runs -/

namespace TableCursor

/-- What is known of a scan between two steps. -/
structure Scanning (pool : PoolId) (tables : Tables) (capacity : Nat) (file : TableFile) (moments : List Store)
    (given : List Row) (s : TableCursor × Store) : Prop where
  shows : ∃ current, pool.Shows tables capacity current s.2
  now : s.2 ∈ moments
  pool_eq : s.1.pool = pool
  file_eq : s.1.file = file
  isOpen : s.1.isOpen = true
  covers : Covers pool file.id moments (given ++ s.1.pending) s.1.nextPage.toNat

/-- The cursor has no row left, and no row lives on a page that it did not copy. -/
def Spent (pool : PoolId) (file : TableFile) (s : TableCursor × Store) : Prop :=
  s.1.pending = [] ∧ ∀ row id, row.id = some id → id.page.table = file.id → pool.Holds row s.2 →
    id.page.number.toNat < s.1.nextPage.toNat

variable {moments : List Store} {given given' : List Row} {cursor cursor' : TableCursor} {store' : Store}

theorem Scanning.reads (h : Scanning pool tables capacity file moments given (cursor, store))
    (mem : file ∈ tables.files) (shows : pool.Shows tables capacity current store)
    (reads : Reads (current file.id) given' cursor cursor') (shows' : pool.Shows tables capacity current store') :
    Scanning pool tables capacity file (moments ++ [store']) (given ++ given') (cursor', store') where
  shows := ⟨current, shows'⟩
  now := List.mem_append_right _ (List.mem_singleton_self _)
  pool_eq := reads.pool_eq.trans h.pool_eq
  file_eq := reads.file_eq.trans h.file_eq
  isOpen := reads.isOpen_eq.trans h.isOpen
  covers := by
    have covers := (h.covers.copied shows mem h.now reads.forward).later [store']
    rw [List.append_assoc, reads.pending_eq, ← List.append_assoc] at covers
    exact covers

theorem Spent.of_left (shows : pool.Shows tables capacity current store)
    (left_eq : cursor.left (current file.id) = []) : Spent pool file (cursor, store) := by
  obtain ⟨pending_eq, rest_eq⟩ := List.append_eq_nil_iff.mp left_eq
  refine ⟨pending_eq, fun row id id_eq table_eq holds => ?_⟩
  obtain ⟨id', page, id_eq', page_eq, slot_eq⟩ := shows.live_of_holds holds
  cases id_eq.symm.trans id_eq'
  by_contra le
  have here : (current file.id)[id.page.number.toNat]? = some page := table_eq ▸ page_eq
  have page_mem : page ∈ (current file.id).drop cursor.nextPage.toNat := by
    refine List.mem_iff_getElem?.mpr ⟨id.page.number.toNat - cursor.nextPage.toNat, ?_⟩
    rw [List.getElem?_drop, Nat.add_sub_cancel' (Nat.le_of_not_lt le), here]
  have row_mem : row ∈ PlainTable.rows ((current file.id).drop cursor.nextPage.toNat) :=
    List.mem_flatMap.mpr ⟨page, page_mem, PlainPage.mem_rows slot_eq⟩
  rw [rest_eq] at row_mem
  cases row_mem

theorem perform_leads (step : ScanStep) (made : ∀ call, step = .call call → call.Made) {s : TableCursor × Store}
    (h : Scanning pool tables capacity file moments given s) (mem : file ∈ tables.files)
    (room : s.2.HasRoom tables.files) :
    Leads
      (fun answer s' => Scanning pool tables capacity file (moments ++ [s'.2]) (given ++ answer.row?.toList) s' ∧
        (answer = .given none → Spent pool file s'))
      (fun _ s' => Scanning pool tables capacity file (moments ++ [s'.2]) given s' ∧ ∃ call, step = .call call)
      (perform pool step s) := by
  obtain ⟨cursor, store⟩ := s
  obtain ⟨current, shows⟩ := h.shows
  have serves : file.Serves pool (current file.id) (pool.Shows tables capacity current) :=
    PoolId.Shows.serves mem (shows.room room file mem)
  cases step with
  | look =>
    obtain ⟨cursor', store', run, reads, shows', -⟩ := serves.hasNext_ok shows h.pool_eq h.file_eq h.isOpen
    have performed : perform pool .look (cursor, store) = .ok (.more _) (cursor', store') := Action.bind_ok run
    rw [performed]
    refine ⟨?_, fun same => by cases same⟩
    exact h.reads mem shows reads shows'
  | take =>
    obtain ⟨cursor', store', run, reads, shows', -⟩ := serves.next_ok shows h.pool_eq h.file_eq h.isOpen
    have performed : perform pool .take (cursor, store) = .ok (.given _) (cursor', store') := Action.bind_ok run
    rw [performed]
    refine ⟨h.reads mem shows reads shows', fun same => .of_left shows' ?_⟩
    have none : (cursor.left (current file.id)).head? = none := ScanAnswer.given.inj same
    rw [List.head?_eq_none_iff] at none
    have left_eq := reads.left_eq
    rw [none] at left_eq
    exact left_eq.symm
  | call call =>
    obtain ⟨current', shows'⟩ := shows.perform_any (made call rfl) (shows.room room)
    have after : Scanning pool tables capacity file (moments ++ [(pool.perform call).after store]) given
        (cursor, (pool.perform call).after store) :=
      ⟨⟨current', shows'⟩, List.mem_append_right _ (List.mem_singleton_self _), h.pool_eq, h.file_eq, h.isOpen,
        h.covers.later _⟩
    unfold Action.after at after
    cases run : pool.perform call store with
    | ok answer store' =>
      have performed : perform pool (.call call) (cursor, store) = .ok (.other answer) (cursor, store') :=
        Action.bind_ok (onStore_ok run)
      rw [run] at after
      rw [performed]
      refine ⟨?_, fun same => by cases same⟩
      simpa [ScanAnswer.row?] using after
    | error failure store' =>
      have performed : perform pool (.call call) (cursor, store) = .error failure (cursor, store') :=
        Action.bind_error (onStore_error run)
      rw [run] at after
      rw [performed]
      exact ⟨after, call, rfl⟩

theorem play_cons (step : ScanStep) (made : ∀ call, step = .call call → call.Made) {s : TableCursor × Store}
    (h : Scanning pool tables capacity file moments given s) (mem : file ∈ tables.files)
    (room : s.2.HasRoom tables.files) (steps : List ScanStep) :
    ∃ outcome s', play pool (step :: steps) s = (outcome, s'.2) :: play pool steps s' ∧
      Scanning pool tables capacity file (moments ++ [s'.2])
        (given ++ (outcome.toOption.bind ScanAnswer.row?).toList) s' ∧
      ((∀ call, step ≠ .call call) → ∃ answer, outcome = .ok answer) ∧
      (outcome = .ok (.given none) → Spent pool file s') := by
  have known := perform_leads step made h mem room
  cases run : perform pool step s with
  | ok answer s' =>
    rw [run] at known
    refine ⟨.ok answer, s', by rw [play, run], known.1, fun _ => ⟨answer, rfl⟩, fun same => ?_⟩
    cases same
    exact known.2 rfl
  | error failure s' =>
    rw [run] at known
    obtain ⟨known, call, same⟩ := known
    refine ⟨.error failure, s', by rw [play, run], ?_, fun other => absurd same (other call), fun same => by cases same⟩
    simpa [Except.toOption] using known

theorem play_scanning (steps : List ScanStep) (made : ∀ call, .call call ∈ steps → call.Made) {s : TableCursor × Store}
    (h : Scanning pool tables capacity file moments given s) (mem : file ∈ tables.files)
    (room : ∀ moment ∈ s.2 :: (play pool steps s).map Prod.snd, moment.HasRoom tables.files) :
    ∃ s', Scanning pool tables capacity file (moments ++ (play pool steps s).map Prod.snd)
        (given ++ givenRows (play pool steps s)) s' ∧ (steps = [] → s' = s) ∧
      (∀ (i : Nat) (step : ScanStep), steps[i]? = some step → (∀ call, step ≠ ScanStep.call call) →
        ∃ answer store', (play pool steps s)[i]? = some (Except.ok answer, store')) ∧
      ∀ store', (play pool steps s).getLast? = some (Except.ok (ScanAnswer.given none), store') →
        Spent pool file s' := by
  induction steps generalizing moments given s with
  | nil =>
    refine ⟨s, ?_, fun _ => rfl, ?_, ?_⟩
    · simpa [play, givenRows] using h
    · intro i step here
      cases here
    · intro store' last
      cases last
  | cons step steps ih =>
    have made' : ∀ call, .call call ∈ steps → call.Made := fun call call_mem =>
      made call (List.mem_cons_of_mem _ call_mem)
    obtain ⟨outcome, s₁, play_eq, known, succeeds, spent⟩ := play_cons step
      (fun call same => made call (same ▸ List.mem_cons_self)) h mem (room _ List.mem_cons_self) steps
    rw [play_eq] at room ⊢
    obtain ⟨s', known', still, succeeds', spent'⟩ := ih made' known fun moment moment_mem =>
      room moment (List.mem_cons_of_mem _ moment_mem)
    refine ⟨s', ?_, nofun, ?_, ?_⟩
    · have given_eq : givenRows ((outcome, s₁.2) :: play pool steps s₁) =
          (outcome.toOption.bind ScanAnswer.row?).toList ++ givenRows (play pool steps s₁) := by
        unfold givenRows
        rw [List.filterMap_cons]
        cases outcome.toOption.bind ScanAnswer.row? <;> rfl
      rw [given_eq, List.map_cons]
      simpa using known'
    · intro i other here ours
      cases i with
      | zero =>
        cases here
        obtain ⟨answer, rfl⟩ := succeeds ours
        exact ⟨answer, s₁.2, rfl⟩
      | succ i => exact succeeds' i other here ours
    · intro store' last
      cases steps with
      | nil =>
        cases last
        rw [still rfl]
        exact spent rfl
      | cons next steps =>
        obtain ⟨outcome', s₂, play_eq', -⟩ := play_cons next
          (fun call same => made' call (same ▸ List.mem_cons_self)) known mem (room _ (by simp)) steps
        rw [play_eq', List.getLast?_cons_cons, ← play_eq'] at last
        exact spent' store' last

/-- Whatever others do to the pool meanwhile, an opened cursor gives rows of its table in the order of their places, so
none of them twice. Each was at its place at some moment since the cursor was opened, and a cursor that gives no more
rows gave all those that were there at every moment. Its own calls succeed. The files must be able to number their pages
at every moment. -/
theorem opened_play {plans : List TablePlan} {config : Config} {disk : Disk} {files : List TableFile} {start : Store}
    (setUp : Store.setUp plans config (.ofDisk disk) = .ok (files, pool) start)
    (ids : (files.map TableFile.id).Nodup) (names : (plans.map TablePlan.name).Nodup)
    (blank : ∀ file ∈ files, ∃ bytes, start.disk.read file.place = .ok bytes ∧ bytes.length = 0)
    (reached : pool.Reaches files start store) (mem : cursor.file ∈ files) (pool_eq : cursor.pool = pool)
    {steps : List ScanStep} (made : ∀ call, .call call ∈ steps → call.Made)
    {history : List (Except Failure ScanAnswer × Store)} (history_eq : play pool steps (cursor.opened, store) = history)
    (room : ∀ moment ∈ history.map Prod.snd, moment.HasRoom files) :
    (∀ (i : Nat) (step : ScanStep), steps[i]? = some step → (∀ call, step ≠ .call call) →
        ∃ answer after, history[i]? = some (.ok answer, after)) ∧
      (givenRows history).Pairwise Row.Precedes ∧
      (∀ row ∈ givenRows history, (∃ id, row.id = some id ∧ id.page.table = cursor.file.id) ∧
        ∃ moment ∈ store :: history.map Prod.snd, pool.Holds row moment) ∧
      (history.getLast?.map Prod.fst = some (.ok (.given none)) →
        ∀ row id, row.id = some id → id.page.table = cursor.file.id →
          (∀ moment ∈ store :: history.map Prod.snd, pool.Holds row moment) → row ∈ givenRows history) := by
  obtain ⟨tables, rfl, -, fresh⟩ := PoolId.shows_of_setUp setUp ids names blank
  obtain ⟨current, shows, lengths⟩ := reached.shows fresh
  have first : Scanning pool tables config.poolPages cursor.file [store] [] (cursor.opened, store) :=
    ⟨⟨current, shows⟩, List.mem_singleton_self _, pool_eq, rfl, rfl, .start ..⟩
  subst history_eq
  obtain ⟨s, known, -, succeeds, spent⟩ := play_scanning steps made first mem fun moment moment_mem => by
    rcases List.mem_cons.mp moment_mem with rfl | moment_mem
    · exact shows.hasRoom lengths
    · exact room moment moment_mem
  have covers := known.covers
  rw [List.nil_append, List.singleton_append] at covers
  refine ⟨succeeds, (List.pairwise_append.mp covers.ordered).1, ?_, ?_⟩
  · intro row row_mem
    have seen := List.mem_append_left s.1.pending row_mem
    obtain ⟨id, id_eq, table_eq, -⟩ := covers.below row seen
    exact ⟨⟨id, id_eq, table_eq⟩, covers.held row seen⟩
  · intro last row id id_eq table_eq always
    obtain ⟨⟨_, after⟩, last, rfl⟩ := Option.map_eq_some_iff.mp last
    obtain ⟨pending_eq, below⟩ := spent after last
    have now := always s.2 known.now
    have seen := covers.complete row ⟨id, id_eq, table_eq, below row id id_eq table_eq now⟩ always
    rwa [pending_eq, List.append_nil] at seen

/-- The first row is looked at and removed before it is given, and another takes its place. -/
def smallSteps : List ScanStep :=
  [.look, .call (.delete ⟨1⟩ (smallRow 1 (smallFile.rowId 0 0))), .take,
    .call (.insert ⟨1⟩ smallFile.id (smallRow 4 none)), .call .evict, .take, .take, .take]

theorem opened_play_of_removing :
    ∃ start store history, Store.setUp [smallPlan] ⟨9, 1⟩ (.ofDisk default) = .ok ([smallFile], ⟨0⟩) start ∧
      PoolId.Reaches ⟨0⟩ [smallFile] start store ∧
      play ⟨0⟩ smallSteps ((TableCursor.new smallFile ⟨0⟩).opened, store) = history ∧
      givenRows history = [smallRow 1 (smallFile.rowId 0 0), smallRow 2 (smallFile.rowId 0 1),
        smallRow 3 (smallFile.rowId 1 0)] ∧
      (givenRows history).Pairwise Row.Precedes ∧
      (∀ row ∈ givenRows history, ∃ moment ∈ store :: history.map Prod.snd, PoolId.Holds ⟨0⟩ row moment) ∧
      ∀ row id, row.id = some id → id.page.table = smallFile.id →
        (∀ moment ∈ store :: history.map Prod.snd, PoolId.Holds ⟨0⟩ row moment) → row ∈ givenRows history := by
  let start : Store := (Store.setUp [smallPlan] ⟨9, 1⟩).after (.ofDisk default)
  let after (n : Int32) (store : Store) : Store :=
    (PoolId.perform ⟨0⟩ (.insert ⟨1⟩ smallFile.id (smallRow n none))).after store
  have setUp : Store.setUp [smallPlan] ⟨9, 1⟩ (.ofDisk default) = .ok ([smallFile], ⟨0⟩) start := rfl
  have blank : ∀ file ∈ [smallFile], ∃ bytes, start.disk.read file.place = .ok bytes ∧ bytes.length = 0 := by
    intro file mem
    cases List.mem_singleton.mp mem
    exact ⟨.empty, rfl, rfl⟩
  have first : PoolId.Reaches ⟨0⟩ [smallFile] start (after 1 start) :=
    .call .start (made_smallRow 1 none) (by decide +kernel)
  have second : PoolId.Reaches ⟨0⟩ [smallFile] start (after 2 (after 1 start)) :=
    .call first (made_smallRow 2 none) (by decide +kernel)
  have third : PoolId.Reaches ⟨0⟩ [smallFile] start (after 3 (after 2 (after 1 start))) :=
    .call second (made_smallRow 3 none) (by decide +kernel)
  have made : ∀ call, .call call ∈ smallSteps → call.Made := by
    simp [smallSteps, PoolCall.Made, made_smallRow]
  have mem : (TableCursor.new smallFile ⟨0⟩).file ∈ [smallFile] := List.mem_singleton_self _
  obtain ⟨-, ordered, held, complete⟩ := opened_play setUp (List.nodup_singleton _) (List.nodup_singleton _) blank third
    mem rfl made rfl (by decide +kernel)
  exact ⟨start, _, _, setUp, third, rfl, by decide +kernel, ordered, fun row mem => (held row mem).2,
    complete (by decide +kernel)⟩

end TableCursor

end RowStore
