import Mathlib.Logic.Relation
import DocumentSession.Read.Lazy

set_option autoImplicit false

/-! # The steps of reading in a workspace

An operation that reads changes its workspace by few kinds of steps, whether or not it succeeds: it
warns, marks an identifier as missing, registers a document, gives a record its entity, or makes an
entity that no record holds (`Workspace.ReadStep`). `Workspace.Reads` is a run of such steps, so
what each step preserves, all reading preserves.

Only documents that a reply lists are registered (`Discloses`): if all of them are in `D`, so are
all that are registered. -/

namespace DocumentSession

/-! ## Documents in a reply -/

/-- The `Results` of a reply. -/
def resultItems (answer : Option Json) : Option (List Json) :=
  answer.bind (fun body => (body.get? "Results").bind Json.items?)

/-- A `LoadReply` has the included documents, and one result for each identifier. -/
theorem LoadReply.eq_of_ofBody {answer : Option Json} {expected : Nat} {reply : LoadReply}
    (h : LoadReply.ofBody answer expected = .ok reply) :
    ∃ items, resultItems answer = some items ∧ items.length = expected
      ∧ reply =
        { results := items.map Json.fields?
          includes := includedDocuments (answer.bind (·.get? "Includes")) } := by
  unfold LoadReply.ofBody at h
  split at h
  · cases h
  · next body hbody =>
    obtain ⟨rfl, -⟩ := Option.filter_eq_some_iff.mp hbody
    split at h
    · cases h
    · next items hitems =>
      split at h
      · cases h
      · next hlength => exact ⟨items, hitems, Decidable.not_not.mp hlength, (Except.ok.inj h).symm⟩

/-- Every document that the reply lists is in `D`. Unless its results are `whole` documents, this is
said of those with metadata only. -/
structure Discloses (D : Fields → Prop) (whole : Prop) (answer : Option Json) : Prop where
  includes : ∀ document ∈ includedDocuments (answer.bind (·.get? "Includes")), D document
  results : ∀ items document, resultItems answer = some items → .obj document ∈ items →
    whole ∨ QueryReply.isDocument document = true → D document

namespace Discloses

variable {D : Fields → Prop} {whole whole' : Prop} {answer : Option Json}

theorem of_always (h : ∀ document, D document) : Discloses D whole answer :=
  ⟨fun document _ => h document, fun _ document _ _ _ => h document⟩

theorem mono (h : Discloses D whole answer) (himp : whole' → whole) :
    Discloses D whole' answer :=
  ⟨h.includes, fun items document hitems hmem hwhole =>
    h.results items document hitems hmem (hwhole.imp_left himp)⟩

theorem of_loadReply (h : Discloses D True answer) {expected : Nat} {reply : LoadReply}
    (hreply : LoadReply.ofBody answer expected = .ok reply) :
    (∀ document ∈ reply.includes, D document)
      ∧ ∀ document, some document ∈ reply.results → D document := by
  obtain ⟨items, hitems, -, rfl⟩ := LoadReply.eq_of_ofBody hreply
  refine ⟨h.includes, ?_⟩
  intro document hmem
  obtain ⟨item, hitem, hfields⟩ := List.mem_map.mp hmem
  cases item with
  | obj fields =>
    obtain rfl := Option.some.inj hfields
    exact h.results items fields hitems hitem (Or.inl trivial)
  | _ => cases hfields

theorem of_queryReply (h : Discloses D whole answer) {reply : QueryReply}
    (hreply : QueryReply.ofBody answer = .ok reply) :
    (∀ document ∈ reply.includes, D document)
      ∧ ∀ document, .obj document ∈ reply.results → QueryReply.isDocument document = true →
        D document := by
  unfold QueryReply.ofBody at hreply
  split at hreply
  · cases hreply
  · next body hbody =>
    obtain ⟨rfl, -⟩ := Option.filter_eq_some_iff.mp hbody
    split at hreply
    · cases hreply
    · next items hitems =>
      obtain rfl := Except.ok.inj hreply
      exact ⟨h.includes, fun document hmem hwhole =>
        h.results items document hitems hmem (Or.inr hwhole)⟩

end Discloses

/-- The read is a load, whose results are whole documents. -/
def LazyRead.IsLoad : LazyRead → Prop
  | .load .. => True
  | _ => False

namespace Workspace

/-! ## Steps of reading -/

/-- A step of reading that registers only documents in `D`. -/
inductive ReadStep (D : Fields → Prop) : Workspace → Workspace → Prop where
  | warn (w : Workspace) (warning : Warning) :
    ReadStep D w { w with shared := w.shared.warn warning }
  | markMissing (w : Workspace) (id : String) : ReadStep D w (w.markMissing id)
  | register (w : Workspace) (document : Fields) (hdocument : D document) :
    ReadStep D w (w.register document).2
  | entityFor (w : Workspace) (type : EntityType) (key : RecordKey) :
    ReadStep D w (w.entityFor type key).2
  | detached (w : Workspace) (type : EntityType) (document : Fields) :
    ReadStep D w (w.detached type document).2

/-- A run of steps of reading. -/
abbrev Reads (D : Fields → Prop) : Workspace → Workspace → Prop :=
  Relation.ReflTransGen (ReadStep D)

variable {D : Fields → Prop} {R : Workspace → Workspace → Prop} {w w' : Workspace}

/-! ## Relations that are closed under reading

The functions below do not warn; only sessions do. So what is proved here of each of them is proved
of every relation that the other steps are in. -/

/-- A reflexive and transitive relation that the steps of reading are in. -/
structure ReadClosed (D : Fields → Prop) (R : Workspace → Workspace → Prop) : Prop where
  refl : ∀ w, R w w
  trans : ∀ {w w' w''}, R w w' → R w' w'' → R w w''
  markMissing : ∀ w id, R w (w.markMissing id)
  register : ∀ {w w' document answer}, D document → w.register document = (answer, w') → R w w'
  entityFor : ∀ {w w' type key answer}, w.entityFor type key = (answer, w') → R w w'
  detached : ∀ {w w' type document answer}, w.detached type document = (answer, w') → R w w'

namespace ReadClosed

/-! ### Single documents -/

theorem lookup (hR : ReadClosed D R) {type : EntityType} {id : String}
    {answer : Except Error Lookup} (h : w.lookup type id = (answer, w')) : R w w' := by
  unfold Workspace.lookup at h
  split at h
  · obtain ⟨-, rfl⟩ := Prod.mk.inj h
    exact hR.refl _
  · split at h
    · obtain ⟨-, rfl⟩ := Prod.mk.inj h
      exact hR.refl _
    · split at h
      · obtain ⟨-, rfl⟩ := Prod.mk.inj h
        exact hR.refl _
      · split at h
        all_goals
          rename_i hentity
          obtain ⟨-, rfl⟩ := Prod.mk.inj h
          exact hR.entityFor hentity

theorem trackDocument (hR : ReadClosed D R) {type : EntityType} {document : Fields}
    (hdocument : D document) {answer : Except Error EntityRef}
    (h : w.trackDocument type document = (answer, w')) : R w w' := by
  unfold Workspace.trackDocument at h
  split at h
  · next hregister =>
    obtain ⟨-, rfl⟩ := Prod.mk.inj h
    exact hR.register hdocument hregister
  · next hregister =>
    refine hR.trans (hR.register hdocument hregister) ?_
    split at h
    all_goals
      rename_i hentity
      obtain ⟨-, rfl⟩ := Prod.mk.inj h
      exact hR.entityFor hentity

/-! ### Several documents -/

theorem registerAll (hR : ReadClosed D R) {documents : List Fields}
    (hdocuments : ∀ document ∈ documents, D document) {answer : Except Error Unit}
    (h : w.registerAll documents = (answer, w')) : R w w' := by
  induction documents generalizing w with
  | nil =>
    obtain ⟨-, rfl⟩ := Prod.mk.inj h
    exact hR.refl _
  | cons document rest ih =>
    obtain ⟨hdocument, hrest⟩ := List.forall_mem_cons.mp hdocuments
    rw [Workspace.registerAll] at h
    split at h
    · next hregister =>
      obtain ⟨-, rfl⟩ := Prod.mk.inj h
      exact hR.register hdocument hregister
    · next hregister => exact hR.trans (hR.register hdocument hregister) (ih hrest h)

theorem takeDocuments (hR : ReadClosed D R) {ids : List String} {results : List (Option Fields)}
    (hresults : ∀ document, some document ∈ results → D document) {answer : Except Error Unit}
    (h : w.takeDocuments ids results = (answer, w')) : R w w' := by
  induction ids generalizing w results with
  | nil =>
    rw [Workspace.takeDocuments] at h
    · obtain ⟨-, rfl⟩ := Prod.mk.inj h
      exact hR.refl _
    · simp
  | cons id ids ih =>
    cases results with
    | nil =>
      rw [Workspace.takeDocuments] at h
      · obtain ⟨-, rfl⟩ := Prod.mk.inj h
        exact hR.refl _
      · simp
    | cons result results =>
      have hrest : ∀ document, some document ∈ results → D document :=
        fun document hmem => hresults document (List.mem_cons_of_mem _ hmem)
      cases result with
      | none =>
        simp only [Workspace.takeDocuments] at h
        exact hR.trans (hR.markMissing w id) (ih hrest h)
      | some document =>
        have hdocument := hresults document (List.mem_cons_self ..)
        simp only [Workspace.takeDocuments] at h
        split at h
        · next hregister =>
          obtain ⟨-, rfl⟩ := Prod.mk.inj h
          exact hR.register hdocument hregister
        · next hregister => exact hR.trans (hR.register hdocument hregister) (ih hrest h)

theorem takeLoad (hR : ReadClosed D R) {ids : List String} {reply : LoadReply}
    (hdocuments : (∀ document ∈ reply.includes, D document)
      ∧ ∀ document, some document ∈ reply.results → D document) {answer : Except Error Unit}
    (h : w.takeLoad ids reply = (answer, w')) : R w w' := by
  unfold Workspace.takeLoad at h
  split at h
  · next hincludes =>
    obtain ⟨-, rfl⟩ := Prod.mk.inj h
    exact hR.registerAll hdocuments.1 hincludes
  · next hincludes =>
    exact hR.trans (hR.registerAll hdocuments.1 hincludes) (hR.takeDocuments hdocuments.2 h)

theorem markAllMissing (hR : ReadClosed D R) (w : Workspace) (ids : List String) :
    R w (w.markAllMissing ids) := by
  induction ids generalizing w with
  | nil => exact hR.refl _
  | cons id rest ih => exact hR.trans (hR.markMissing w id) (ih _)

theorem unknownIds (hR : ReadClosed D R) {type : EntityType} {ids : List String}
    {answer : Except Error (List String)} (h : w.unknownIds type ids = (answer, w')) :
    R w w' := by
  induction ids generalizing w answer with
  | nil =>
    obtain ⟨-, rfl⟩ := Prod.mk.inj h
    exact hR.refl _
  | cons id rest ih =>
    rw [Workspace.unknownIds] at h
    split at h
    · next hlookup =>
      obtain ⟨-, rfl⟩ := Prod.mk.inj h
      exact hR.lookup hlookup
    · next hlookup =>
      refine hR.trans (hR.lookup hlookup) ?_
      split at h
      · next hrest =>
        obtain ⟨-, rfl⟩ := Prod.mk.inj h
        exact ih hrest
      · exact ih h

theorem collect (hR : ReadClosed D R) {type : EntityType} {found : Dict (Option EntityRef)}
    {ids : List String} {answer : Except Error (Dict (Option EntityRef))}
    (h : w.collect type found ids = (answer, w')) : R w w' := by
  induction ids generalizing w found with
  | nil =>
    obtain ⟨-, rfl⟩ := Prod.mk.inj h
    exact hR.refl _
  | cons id rest ih =>
    rw [Workspace.collect] at h
    split at h
    · next hlookup =>
      obtain ⟨-, rfl⟩ := Prod.mk.inj h
      exact hR.lookup hlookup
    · next hlookup => exact hR.trans (hR.lookup hlookup) (ih h)
    · next hlookup => exact hR.trans (hR.lookup hlookup) (ih h)

/-! ### Queries -/

theorem takeResults (hR : ReadClosed D R) {type : EntityType} {tracking : Bool}
    {results : List Json}
    (hresults : ∀ document, .obj document ∈ results → QueryReply.isDocument document = true →
      D document) {answer : Except Error (List EntityRef)}
    (h : w.takeResults type tracking results = (answer, w')) : R w w' := by
  induction results generalizing w answer with
  | nil =>
    obtain ⟨-, rfl⟩ := Prod.mk.inj h
    exact hR.refl _
  | cons result rest ih =>
    have hrest : ∀ document, .obj document ∈ rest → QueryReply.isDocument document = true →
        D document :=
      fun document hmem => hresults document (List.mem_cons_of_mem _ hmem)
    cases result with
    | obj document =>
      rw [Workspace.takeResults] at h
      -- tracked documents are registered, all others only give an instance
      have hmade : ∀ {made : Except Error EntityRef} {w₁ : Workspace},
          (if tracking && QueryReply.isDocument document then w.trackDocument type document
            else w.detached type document) = (made, w₁) → R w w₁ := by
        intro made w₁ hmade
        split at hmade
        · next hwhole =>
          simp only [Bool.and_eq_true] at hwhole
          exact hR.trackDocument (hresults document (List.mem_cons_self ..) hwhole.2) hmade
        · exact hR.detached hmade
      split at h
      · next hfirst =>
        obtain ⟨-, rfl⟩ := Prod.mk.inj h
        exact hmade hfirst
      · next hfirst =>
        refine hR.trans (hmade hfirst) ?_
        split at h
        · next htaken =>
          obtain ⟨-, rfl⟩ := Prod.mk.inj h
          exact ih hrest htaken
        · exact ih hrest h
    | _ =>
      rw [Workspace.takeResults] at h
      · exact ih hrest h
      · simp

theorem takeQuery (hR : ReadClosed D R) {type : EntityType} {tracking : Bool} {reply : QueryReply}
    (hdocuments : (∀ document ∈ reply.includes, D document)
      ∧ ∀ document, .obj document ∈ reply.results → QueryReply.isDocument document = true →
        D document)
    {answer : Except Error QueryResult} (h : w.takeQuery type tracking reply = (answer, w')) :
    R w w' := by
  have htaken : ∀ document ∈ (if tracking then reply.includes else []), D document := by
    intro document hmem
    split at hmem
    · exact hdocuments.1 document hmem
    · cases hmem
  unfold Workspace.takeQuery at h
  split at h
  · next hincludes =>
    obtain ⟨-, rfl⟩ := Prod.mk.inj h
    exact hR.registerAll htaken hincludes
  · next hincludes =>
    refine hR.trans (hR.registerAll htaken hincludes) ?_
    split at h
    all_goals
      rename_i hresults
      obtain ⟨-, rfl⟩ := Prod.mk.inj h
      exact hR.takeResults hdocuments.2 hresults

/-! ### Lazy reads -/

theorem prepare (hR : ReadClosed D R) {read : LazyRead} {answer : LazyRead.Prepared}
    (h : read.prepare w = (answer, w')) : R w w' := by
  cases read with
  | load type ids includes requested =>
    unfold LazyRead.prepare at h
    dsimp only at h
    split at h
    · next hunknown =>
      obtain ⟨-, rfl⟩ := Prod.mk.inj h
      exact hR.unknownIds hunknown
    · next hunknown =>
      obtain ⟨-, rfl⟩ := Prod.mk.inj h
      exact hR.trans (hR.unknownIds hunknown) (hR.collect rfl)
    · next hunknown =>
      obtain ⟨-, rfl⟩ := Prod.mk.inj h
      exact hR.unknownIds hunknown
  | query type q tracking =>
    obtain ⟨-, rfl⟩ := Prod.mk.inj h
    exact hR.refl _
  | count q =>
    obtain ⟨-, rfl⟩ := Prod.mk.inj h
    exact hR.refl _

theorem takeLoaded (hR : ReadClosed D R) {requested : List String} {response : SubResponse}
    (hdiscloses : Discloses D True response.result) {answer : Except Error Unit}
    (h : LazyRead.takeLoaded w requested response = (answer, w')) : R w w' := by
  unfold LazyRead.takeLoaded at h
  split at h
  · obtain ⟨-, rfl⟩ := Prod.mk.inj h
    exact hR.markAllMissing w requested
  · split at h
    · obtain ⟨-, rfl⟩ := Prod.mk.inj h
      exact hR.refl _
    · next hreply => exact hR.takeLoad (hdiscloses.of_loadReply hreply) h

theorem receive (hR : ReadClosed D R) {read : LazyRead} {response : SubResponse}
    (hdiscloses : Discloses D read.IsLoad response.result) {answer : Except Error LazyValue}
    (h : read.receive w response = (answer, w')) : R w w' := by
  cases read with
  | load type ids includes requested =>
    unfold LazyRead.receive at h
    dsimp only at h
    split at h
    · next htaken =>
      obtain ⟨-, rfl⟩ := Prod.mk.inj h
      exact hR.takeLoaded hdiscloses htaken
    · next htaken =>
      obtain ⟨-, rfl⟩ := Prod.mk.inj h
      exact hR.trans (hR.takeLoaded hdiscloses htaken) (hR.collect rfl)
  | query type q tracking =>
    unfold LazyRead.receive at h
    dsimp only at h
    split at h
    · obtain ⟨-, rfl⟩ := Prod.mk.inj h
      exact hR.refl _
    · next hreply =>
      obtain ⟨-, rfl⟩ := Prod.mk.inj h
      exact hR.takeQuery (hdiscloses.of_queryReply hreply) rfl
  | count q =>
    obtain ⟨-, rfl⟩ := Prod.mk.inj h
    exact hR.refl _

end ReadClosed

/-! ## Reading -/

theorem readClosed_reads : ReadClosed D (Reads D) where
  refl _ := .refl
  trans := .trans
  markMissing w id := .single (.markMissing w id)
  register {w w' document answer} hdocument h := by
    have hstep := ReadStep.register w document hdocument
    rw [h] at hstep
    exact .single hstep
  entityFor {w w' type key answer} h := by
    have hstep := ReadStep.entityFor (D := D) w type key
    rw [h] at hstep
    exact .single hstep
  detached {w w' type document answer} h := by
    have hstep := ReadStep.detached (D := D) w type document
    rw [h] at hstep
    exact .single hstep

end Workspace

/-! ## Frames -/

/-- The fields of a unit of work that no operation changes. -/
def UnitOfWork.settings (u : UnitOfWork) : Conventions × Bool :=
  (u.conventions, u.noTracking)

namespace Workspace

variable {w w' : Workspace}

theorem settings_register (w : Workspace) (document : Fields) :
    (w.register document).2.work.settings = w.work.settings := by
  unfold register refreshRecord
  dsimp only
  repeat' split
  all_goals rfl

theorem settings_entityFor (w : Workspace) (type : EntityType) (key : RecordKey) :
    (w.entityFor type key).2.work.settings = w.work.settings := by
  unfold entityFor
  repeat' split
  all_goals first | rfl | (dsimp only; split <;> rfl)

theorem Reads.settings {D : Fields → Prop} (h : w.Reads D w') :
    w'.work.settings = w.work.settings := by
  induction h with
  | refl => rfl
  | tail _ hstep ih =>
    rw [← ih]
    cases hstep with
    | warn warning => rfl
    | markMissing id => rfl
    | register document _ => exact settings_register _ document
    | entityFor type key => exact settings_entityFor _ type key
    | detached type document =>
      unfold detached
      dsimp only
      split <;> rfl

end Workspace

end DocumentSession
