import MediaProxy.Object.Operation

/-!
This module contains which replies fit which operations, and which errors come of them.
-/

namespace MediaProxy

def Decoder.Faithful (decoder : Decoder) : Prop :=
  ∀ bytes error, decoder.decode bytes = .error error → ∃ problem, error = .serialization problem

theorem Decoder.faithful_ofJson (type : TypeTag) (read : Bytes → Except Json.Problem (List Datum))
    : (ofJson type read).Faithful := by
  intro bytes error h
  unfold decode ofJson at h
  dsimp only at h
  cases hread : read bytes with
  | error problem =>
    rw [hread] at h
    cases h
    exact ⟨problem, rfl⟩
  | ok data =>
    rw [hread] at h
    cases h

theorem Decoder.faithful_raw : raw.Faithful := by
  intro bytes error h
  cases h

def DecoderTable.Faithful (table : DecoderTable) : Prop :=
  ∀ entry ∈ table, entry.2.Faithful

def Error.isLocal : Error → Bool
  | .released _ => true
  | .unknownObjectKind _ => true
  | .unknownCommandType _ => true
  | .serialization _ => true
  | _ => false

def Local (result : Except Error α) : Prop :=
  ∀ error, result = .error error → error.isLocal

theorem Local.ok (value : α) : Local (.ok value) := by
  intro error h
  cases h

theorem Local.error {error : Error} (h : error.isLocal) : Local (.error error : Except Error α) := by
  intro error' heq
  cases heq
  exact h

theorem Local.map {result : Except Error α} (h : Local result) (f : α → β)
    : Local (result.map f) := by
  cases result with
  | ok value => exact .ok (f value)
  | error error => exact .error (h error rfl)

theorem DecoderTable.Faithful.decode {table : DecoderTable} (h : table.Faithful) (type : String)
    (bytes : Bytes)
    : Local (table.decode type bytes) := by
  unfold DecoderTable.decode
  split
  . exact .error rfl
  . next decoder hlookup =>
    apply Local.map
    intro error herror
    obtain ⟨_, _, heq⟩ := List.lookup_eq_some_iff.1 hlookup
    have hmem : (type, decoder) ∈ table := by simp [heq]
    obtain ⟨problem, rfl⟩ := h _ hmem bytes error herror
    rfl

namespace Operation

def fits : Operation → Reply → Bool
  | .release, .unit => true
  | .keepAlive, .unit => true
  | .addListener _, .token _ => true
  | .removeListener _, .unit => true
  | .sendCommand _, .result _ => true
  | .getParent, .reference _ => true
  | .getMediaPipeline, .reference (some _) => true
  | _, _ => false

def spoils (operation : Operation) : Except RpcError Reply → Bool
  | .error (.broken _) => true
  | .error (.protocol _) => true
  | .error (.timeout _) => true
  | .error (.server ..) => false
  | .ok reply => !operation.fits reply

theorem expect_of_fits {operation : Operation} {reply : Reply} (h : operation.fits reply)
    (request : Request)
    : operation.expect request reply = .ok reply := by
  cases operation <;> cases reply with
  | reference r => cases r <;> first | rfl | cases h
  | _ => first | rfl | cases h

theorem expect_of_not_fits {operation : Operation} {reply : Reply} (h : operation.fits reply = false)
    (request : Request)
    : ∃ message, operation.expect request reply = .error (.protocol message) := by
  cases operation <;> cases reply with
  | reference r => cases r <;> first | exact ⟨_, rfl⟩ | cases h
  | _ => first | exact ⟨_, rfl⟩ | cases h

def Reported (operation : Operation) (reply : Except RpcError Reply)
    (result : Except Error Value) : Prop :=
  match reply with
  | .error (.server message code) => result = .error (.application message code)
  | .error error => result = .error (.transport error)
  | .ok reply =>
    if operation.fits reply then Local result
    else ∃ message, result = .error (.transport (.protocol message))

end Operation

namespace Store

theorem local_resolve (store : Store) (f c : Nat) (reference : Reference)
    : Local (store.resolve f c reference).1 := by
  unfold resolve
  split
  . exact .ok _
  . split
    . next error herror =>
      unfold KindTable.type at herror
      split at herror
      . cases herror
      . cases herror
        exact .error rfl
    . exact .ok _

theorem local_resolveAs (store : Store) (f c : Nat) (reference : Reference) (type : ProxyClass)
    : Local (store.resolveAs f c reference type).1 := by
  have hresolve := store.local_resolve f c reference
  unfold resolveAs
  split
  . next heq =>
    rw [heq] at hresolve
    exact hresolve
  . split
    . exact .ok _
    . exact .error rfl

theorem local_resolvePipelineFor (store : Store) (o : ObjectId) (reference : Reference)
    : Local (store.resolvePipelineFor o reference).1 :=
  (store.local_resolveAs _ _ _ _).map _

theorem local_resolveParentFor (store : Store) (o : ObjectId) (parent : Option Reference)
    : Local (store.resolveParentFor o parent).1 := by
  unfold resolveParentFor
  split
  . exact .ok _
  . exact (store.local_resolve _ _ _).map _

theorem local_finishParent (store : Store) (o : ObjectId) (parent : Option Reference)
    : Local (store.finishParent o parent).1 := by
  have hresolve := store.local_resolveParentFor o parent
  unfold finishParent
  split
  . next heq =>
    rw [heq] at hresolve
    exact hresolve
  . split
    . exact .ok _
    . split
      . exact .ok _
      . apply local_resolveParentFor

theorem local_finishPipeline (store : Store) (o : ObjectId) (pipeline : Reference)
    : Local (store.finishPipeline o pipeline).1 := by
  have hresolve := store.local_resolvePipelineFor o pipeline
  unfold finishPipeline
  split
  . next heq =>
    rw [heq] at hresolve
    exact hresolve
  . split
    . exact .ok _
    . split
      . exact .ok _
      . apply local_resolvePipelineFor

theorem local_finish {store : Store} {o : ObjectId} {operation : Operation} {reply : Reply}
    (hfits : operation.fits reply)
    (hdecoders : (store.decoders (store.object o).context).Faithful)
    : Local (store.finish o operation reply).1 := by
  cases operation with
  | release =>
    cases reply with
    | unit => exact .ok _
    | _ => cases hfits
  | keepAlive =>
    cases reply with
    | unit => exact .ok _
    | _ => cases hfits
  | addListener listener =>
    cases reply with
    | token token => exact .ok _
    | _ => cases hfits
  | removeListener subscription =>
    cases reply with
    | unit => exact .ok _
    | _ => cases hfits
  | sendCommand command =>
    cases reply with
    | result bytes => exact (hdecoders.decode _ _).map _
    | _ => cases hfits
  | getParent =>
    cases reply with
    | reference parent => apply store.local_finishParent o parent
    | _ => cases hfits
  | getMediaPipeline =>
    cases reply with
    | reference pipeline =>
      cases pipeline with
      | none => cases hfits
      | some pipeline => apply store.local_finishPipeline o pipeline
    | _ => cases hfits

theorem reported_conclude {store : Store} {o : ObjectId} {operation : Operation}
    (request : Request) (reply : Except RpcError Reply)
    (hdecoders : (store.decoders (store.object o).context).Faithful)
    : operation.Reported reply
        (store.conclude o operation (reply.bind (operation.expect request))).1 := by
  cases reply with
  | error error => cases error <;> rfl
  | ok reply =>
    unfold Operation.Reported
    dsimp only
    rw [Except.bind]
    split
    . next hfits =>
      rw [Operation.expect_of_fits hfits]
      apply local_finish hfits hdecoders
    . next hfits =>
      obtain ⟨message, hexpect⟩ := Operation.expect_of_not_fits (by simpa using hfits) request
      rw [hexpect]
      exact ⟨message, rfl⟩

theorem local_start {store after : Store} {o : ObjectId} {operation : Operation}
    {result : Except Error Value} (h : store.start o operation = (.answered result, after))
    : Local result := by
  unfold start at h
  dsimp only at h
  split at h
  . cases h
    exact .error rfl
  . split at h
    . split at h
      . cases h
        apply store.local_resolveParentFor o
      . cases h
    . split at h
      . cases h
        apply store.local_resolvePipelineFor o
      . split at h
        . cases h
          apply store.local_resolvePipelineFor o
        . cases h
    . cases h

theorem start_asks {store after : Store} {o : ObjectId} {operation : Operation} {request : Request}
    (h : store.start o operation = (.asks request, after))
    : after = store ∧
      request = operation.request (store.context (store.object o).context).config := by
  unfold start at h
  dsimp only at h
  split at h
  . cases h
  . split at h
    . split at h
      . cases h
      . cases h
        exact ⟨rfl, rfl⟩
    . split at h
      . cases h
      . split at h
        . cases h
        . cases h
          exact ⟨rfl, rfl⟩
    . cases h
      exact ⟨rfl, rfl⟩

end Store

end MediaProxy
