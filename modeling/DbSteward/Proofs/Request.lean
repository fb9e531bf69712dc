import DbSteward.Proofs.Comparison
import DbSteward.Pass.Modification

/-!
# What a modify request carries

A request is built from the changes by looking up the path of every field it can carry.
Here its content is read off the two documents instead: a field is carried when it is
flagged, can be sent and has something to send.  Both forms of the request, for clusters and
for instances, are instances of one statement.
-/

namespace DbSteward

namespace FieldType

@[simp] theorem isAbsent_absent (t : FieldType) : t.isAbsent t.absent = true := by
  cases t <;> rfl

@[simp] theorem word?_absent (t : FieldType) : t.word? t.absent = none := by
  cases t <;> rfl

end FieldType

namespace ModifyForm

theorem fitsNarrow_iff {i : Int64} :
    fitsNarrow i = true ↔ -2147483648 ≤ i.toInt ∧ i.toInt ≤ 2147483647 := by
  have hmin : Int32.minValue.toInt = -2147483648 := by decide
  have hmax : Int32.maxValue.toInt = 2147483647 := by decide
  rw [fitsNarrow, Bool.and_eq_true, decide_eq_true_eq, decide_eq_true_eq, hmin, hmax]

/-- An integer that fits survives the way through a word of 32 bits. -/
theorem toInt64_toInt32_of_fitsNarrow {i : Int64} (hfits : fitsNarrow i = true) :
    i.toInt32.toInt64 = i := by
  rw [fitsNarrow_iff] at hfits
  rw [← Int64.toInt_inj, Int32.toInt_toInt64, Int64.toInt_toInt32]
  apply Int.bmod_eq_of_le <;> omega

section Content

variable {S : Schema} {form : ModifyForm S}

theorem sends_iff {desired observed : S.Record} (f : S.Field) :
    form.sends desired observed f = true ↔
      f ∈ form.sendable ∧ f ∉ form.heldBack desired observed := by
  simp [sends]

theorem carried_of_sent {changes : Changes} {desired observed : S.Record} {f : S.Field}
    (hsends : form.sends desired observed f = true)
    (htouches : changes.touches (S.path f) = true) :
    form.carried changes desired observed f = desired f := by
  simp [carried, hsends, htouches]

theorem carried_eq_absent {changes : Changes} {desired observed : S.Record} {f : S.Field}
    (hnot : ¬ (form.sends desired observed f = true ∧ changes.touches (S.path f) = true)) :
    form.carried changes desired observed f = (S.type f).absent := by
  unfold carried
  rw [if_neg]
  simpa using hnot

theorem present_carried_iff {changes : Changes} {desired observed : S.Record} {f : S.Field} :
    (S.type f).isAbsent (form.carried changes desired observed f) = false ↔
      form.sends desired observed f = true ∧ changes.touches (S.path f) = true ∧
        (S.type f).isAbsent (desired f) = false := by
  by_cases hsent : form.sends desired observed f = true ∧ changes.touches (S.path f) = true
  · rw [carried_of_sent hsent.1 hsent.2]
    simp [hsent]
  · rw [carried_eq_absent hsent, FieldType.isAbsent_absent]
    constructor
    · intro h
      simp at h
    · rintro ⟨hsends, htouches, -⟩
      exact absurd ⟨hsends, htouches⟩ hsent

theorem carried_of_present {changes : Changes} {desired observed : S.Record} {f : S.Field}
    (hpresent : (S.type f).isAbsent (form.carried changes desired observed f) = false) :
    form.carried changes desired observed f = desired f := by
  obtain ⟨hsends, htouches, -⟩ := present_carried_iff.1 hpresent
  exact carried_of_sent hsends htouches

theorem checkNarrow_eq_ok_iff {carried : S.Record} {fields : List S.Field} :
    checkNarrow carried fields = .ok () ↔
      ∀ f ∈ fields, ∀ i, (S.type f).word? (carried f) = some i → fitsNarrow i = true := by
  induction fields with
  | nil => simp [checkNarrow]
  | cons f rest ih =>
      rw [checkNarrow, List.forall_mem_cons]
      cases hword : (S.type f).word? (carried f) with
      | none => simp [ih]
      | some i =>
          by_cases hfits : fitsNarrow i = true
          · simp [hfits, ih]
          · simp [hfits]

theorem checkNarrow_cases (carried : S.Record) (fields : List S.Field) :
    checkNarrow carried fields = .ok () ∨
      ∃ f ∈ fields, ∃ i, (S.type f).word? (carried f) = some i ∧ fitsNarrow i = false ∧
        checkNarrow carried fields = .error (tooWide (S.label f) i) := by
  induction fields with
  | nil => exact .inl rfl
  | cons f rest ih =>
      have hlater : checkNarrow carried rest = .ok () ∨
          ∃ g ∈ f :: rest, ∃ i, (S.type g).word? (carried g) = some i ∧ fitsNarrow i = false ∧
            checkNarrow carried rest = .error (tooWide (S.label g) i) := by
        rcases ih with hok | ⟨g, hg, i, h⟩
        · exact .inl hok
        · exact .inr ⟨g, List.mem_cons_of_mem _ hg, i, h⟩
      rw [checkNarrow]
      cases hword : (S.type f).word? (carried f) with
      | none => exact hlater
      | some i =>
          by_cases hfits : fitsNarrow i = true
          · simpa [hfits] using hlater
          · refine .inr ⟨f, List.mem_cons_self .., i, hword, ?_, ?_⟩
            · simpa using hfits
            · simp [hfits]

theorem passwordFor_eq_some_iff {context : Context} {secret : Option SecretRef}
    {password : Option String} (hpassword : passwordFor context secret = .ok password)
    (text : String) :
    password = some text ↔
      text ≠ "" ∧ ∃ reference, secret = some reference ∧
        context.secrets reference = some text := by
  cases secret with
  | none =>
      obtain rfl : none = password := by simpa [passwordFor] using hpassword
      simp
  | some reference =>
      cases hsecret : context.secrets reference with
      | none => simp [passwordFor, Pass.secret, hsecret, Except.map] at hpassword
      | some value =>
          have hvalue : (if value.isEmpty then none else some value) = password := by
            simpa [passwordFor, Pass.secret, hsecret, Except.map] using hpassword
          rw [← hvalue]
          by_cases hempty : value = ""
          · subst hempty
            rw [if_pos (String.isEmpty_iff.2 rfl)]
            constructor
            · intro h
              simp at h
            · rintro ⟨hne, other, heq, hother⟩
              obtain rfl := Option.some.inj heq
              rw [hsecret] at hother
              exact absurd (Option.some.inj hother).symm hne
          · have hisEmpty : value.isEmpty = false := by
              rw [Bool.eq_false_iff]
              intro h
              exact hempty (String.isEmpty_iff.1 h)
            rw [hisEmpty]
            simp only [Bool.false_eq_true, if_false, Option.some.injEq]
            constructor
            · rintro rfl
              exact ⟨hempty, reference, rfl, hsecret⟩
            · rintro ⟨-, other, rfl, hother⟩
              rw [hsecret] at hother
              exact Option.some.inj hother

end Content

/-! ## Whole requests -/

section Request

variable {S : Schema}

/-- What a request carries, in terms of what changed. -/
structure Conveys (form : ModifyForm S) (context : Context) (changes : Changes)
    (desired observed : S.Record) (request : Modification S) : Prop where
  identifier_eq : form.identifier desired = some request.identifier
  at_once : request.applyImmediately = true
  major_allowed : request.allowMajorUpgrade = true
  carried_eq : request.carried = form.carried changes desired observed
  narrow : ∀ f ∈ form.narrow, ∀ i, (S.type f).word? (request.carried f) = some i →
    fitsNarrow i = true
  logs_eq : request.logs = form.logsIfTouched changes desired observed
  password_iff : ∀ text, request.password = some text ↔
    changes.touches (S.path form.passwordField) = true ∧ text ≠ "" ∧
      ∃ reference, form.password desired = some reference ∧
        context.secrets reference = some text

variable {form : ModifyForm S} {context : Context} {changes : Changes}
  {desired observed : S.Record} {request : Modification S}

theorem passwordIfTouched_eq_some_iff {password : Option String}
    (hpassword : form.passwordIfTouched context changes desired = .ok password)
    (text : String) :
    password = some text ↔
      changes.touches (S.path form.passwordField) = true ∧ text ≠ "" ∧
        ∃ reference, form.password desired = some reference ∧
          context.secrets reference = some text := by
  unfold passwordIfTouched at hpassword
  split at hpassword
  · rename_i htouches
    rw [passwordFor_eq_some_iff hpassword]
    simp [htouches]
  · rename_i htouches
    obtain rfl : none = password := by simpa using hpassword
    simp [htouches]

theorem request_eq_ok (hrequest : form.request context changes desired observed = .ok request) :
    form.identifier desired = some request.identifier ∧
      checkNarrow (form.carried changes desired observed) form.narrow = .ok () ∧
      form.passwordIfTouched context changes desired = .ok request.password ∧
      request =
        { identifier := request.identifier
          applyImmediately := true
          allowMajorUpgrade := true
          carried := form.carried changes desired observed
          password := request.password
          logs := form.logsIfTouched changes desired observed } := by
  unfold ModifyForm.request at hrequest
  cases hidentifier : form.identifier desired with
  | none => simp [hidentifier] at hrequest
  | some identifier =>
      rw [hidentifier] at hrequest
      cases hnarrow : checkNarrow (form.carried changes desired observed) form.narrow with
      | error failure => simp [hnarrow, bind, Except.bind] at hrequest
      | ok done =>
          cases hpassword : form.passwordIfTouched context changes desired with
          | error failure => simp [hnarrow, hpassword, bind, Except.bind] at hrequest
          | ok password =>
              simp only [hnarrow, hpassword, bind, Except.bind, pure, Except.pure,
                Except.ok.injEq] at hrequest
              subst hrequest
              exact ⟨rfl, rfl, rfl, rfl⟩

theorem request_conveys
    (hrequest : form.request context changes desired observed = .ok request) :
    form.Conveys context changes desired observed request := by
  obtain ⟨hidentifier, hnarrow, hpassword, hparts⟩ := request_eq_ok hrequest
  have hcarried : request.carried = form.carried changes desired observed :=
    congrArg Modification.carried hparts
  exact
    { identifier_eq := hidentifier
      at_once := congrArg Modification.applyImmediately hparts
      major_allowed := congrArg Modification.allowMajorUpgrade hparts
      carried_eq := hcarried
      narrow := hcarried ▸ checkNarrow_eq_ok_iff.1 hnarrow
      logs_eq := congrArg Modification.logs hparts
      password_iff := passwordIfTouched_eq_some_iff hpassword }

theorem Conveys.present_iff (hconveys : form.Conveys context changes desired observed request)
    (f : S.Field) :
    (S.type f).isAbsent (request.carried f) = false ↔
      form.sends desired observed f = true ∧ changes.touches (S.path f) = true ∧
        (S.type f).isAbsent (desired f) = false := by
  rw [hconveys.carried_eq]
  exact present_carried_iff

theorem Conveys.unchanged (hconveys : form.Conveys context changes desired observed request)
    {f : S.Field} (hpresent : (S.type f).isAbsent (request.carried f) = false) :
    request.carried f = desired f := by
  rw [hconveys.carried_eq] at hpresent ⊢
  exact carried_of_present hpresent

theorem Conveys.logs_iff (hconveys : form.Conveys context changes desired observed request)
    (exports : LogExports) :
    request.logs = some exports ↔
      changes.touches (S.path form.logsField) = true ∧
        exports = .between ((form.logs desired).getD []) ((form.logs observed).getD []) := by
  rw [hconveys.logs_eq, logsIfTouched]
  split
  · rename_i htouches
    simp [htouches, eq_comm]
  · rename_i htouches
    simp [htouches]

theorem Conveys.survives_narrowing
    (hconveys : form.Conveys context changes desired observed request) {f : S.Field}
    (hnarrow : f ∈ form.narrow) {i : Int64}
    (hword : (S.type f).word? (request.carried f) = some i) : i.toInt32.toInt64 = i :=
  toInt64_toInt32_of_fitsNarrow (hconveys.narrow f hnarrow i hword)

/-- The field is to be sent and holds an integer that does not fit it. -/
def Misfits (form : ModifyForm S) (changes : Changes) (desired observed : S.Record)
    (f : S.Field) : Prop :=
  f ∈ form.narrow ∧ form.sends desired observed f = true ∧
    changes.touches (S.path f) = true ∧
    ∃ i, (S.type f).word? (desired f) = some i ∧ fitsNarrow i = false

theorem word?_carried_iff {f : S.Field} {i : Int64} :
    (S.type f).word? (form.carried changes desired observed f) = some i ↔
      form.sends desired observed f = true ∧ changes.touches (S.path f) = true ∧
        (S.type f).word? (desired f) = some i := by
  by_cases hsent : form.sends desired observed f = true ∧ changes.touches (S.path f) = true
  · rw [carried_of_sent hsent.1 hsent.2]
    simp [hsent]
  · rw [carried_eq_absent hsent, FieldType.word?_absent]
    constructor
    · intro h
      simp at h
    · rintro ⟨hsends, htouches, -⟩
      exact absurd ⟨hsends, htouches⟩ hsent

theorem Conveys.not_misfits (hconveys : form.Conveys context changes desired observed request)
    (f : S.Field) : ¬ form.Misfits changes desired observed f := by
  rintro ⟨hnarrow, hsends, htouches, i, hword, hmisfit⟩
  have hcarried : (S.type f).word? (request.carried f) = some i := by
    rw [hconveys.carried_eq]
    exact word?_carried_iff.2 ⟨hsends, htouches, hword⟩
  rw [hconveys.narrow f hnarrow i hcarried] at hmisfit
  simp at hmisfit

/-- The error names a field that does not fit, the first one in the order of the form. -/
theorem request_of_misfit (context : Context) {identifier : String} {f : S.Field}
    (hidentifier : form.identifier desired = some identifier)
    (hmisfits : form.Misfits changes desired observed f) :
    ∃ g i, form.Misfits changes desired observed g ∧
      form.request context changes desired observed = .error (tooWide (S.label g) i) := by
  rcases checkNarrow_cases (form.carried changes desired observed) form.narrow with
    hok | ⟨g, hg, i, hword, hmisfit, herror⟩
  · obtain ⟨hnarrow, hsends, htouches, i, hword, hmisfit⟩ := hmisfits
    have hfits := checkNarrow_eq_ok_iff.1 hok f hnarrow i
      (word?_carried_iff.2 ⟨hsends, htouches, hword⟩)
    rw [hfits] at hmisfit
    simp at hmisfit
  · obtain ⟨hsends, htouches, hdesired⟩ := word?_carried_iff.1 hword
    refine ⟨g, i, ⟨hg, hsends, htouches, i, hdesired, hmisfit⟩, ?_⟩
    rw [ModifyForm.request, hidentifier]
    simp only [herror, bind, Except.bind]

/-- The field keeps a request from being built. -/
def Blocks (form : ModifyForm S) (changes : Changes) (desired observed : S.Record)
    (f : S.Field) : Prop :=
  (f = form.identifierField ∧ form.identifier desired = none) ∨
    form.Misfits changes desired observed f

theorem Conveys.not_blocks (hconveys : form.Conveys context changes desired observed request)
    (f : S.Field) : ¬ form.Blocks changes desired observed f := by
  rintro (⟨-, hnone⟩ | hmisfits)
  · rw [hconveys.identifier_eq] at hnone
    simp at hnone
  · exact hconveys.not_misfits f hmisfits

theorem request_of_blocks (context : Context) {f : S.Field}
    (hblocks : form.Blocks changes desired observed f) :
    ∃ g message, form.Blocks changes desired observed g ∧
      form.request context changes desired observed =
        .error (.invalidSpec (S.label g) message) := by
  cases hidentifier : form.identifier desired with
  | none =>
      refine ⟨form.identifierField, "required for " ++ form.operation,
        .inl ⟨rfl, hidentifier⟩, ?_⟩
      rw [ModifyForm.request, hidentifier, identifierMissing]
  | some identifier =>
      rcases hblocks with ⟨-, hnone⟩ | hmisfits
      · rw [hidentifier] at hnone
        simp at hnone
      · obtain ⟨g, i, hother, hrequest⟩ := request_of_misfit context hidentifier hmisfits
        exact ⟨g, _, .inr hother, hrequest⟩

end Request

end ModifyForm
end DbSteward
