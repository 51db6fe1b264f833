import Sovra.Cosigner.Api
import Sovra.Ipc.Preflight

/-!
# Sovra — the cosigners behind the URLs

What the orchestrator's probes read when cosigners answer them: a handler's
result becomes a response, and the probe reads the result back out of it.

* `fetchSigner_respond` — the startup probe of a cosigner reads its store.
* `getJson_respond`     — a pre-flight probe reads what the handler returned.
-/

namespace Sovra.Ipc

open Lib Mpc State Cosigner

/-- What axum makes of a handler's result: 200 and the value, or the error's
status and body. Nobody reads an error's body as a value. -/
def respond {T : Type} (A : Eth.Alloy) (render : ErrorBody → String) :
    Except CosignerError T → Response T
  | .ok value => ⟨200, none, .ok value⟩
  | .error e => ⟨e.status, some (render (e.body A)), .error "an error body"⟩

/-- Every error has a status of 400 or above. -/
theorem error_status {e : CosignerError} : 400 ≤ e.status := by
  unfold CosignerError.status
  split <;> omega

/-- No error is taken for a success. -/
theorem error_not_success (e : CosignerError) : isSuccess e.status = false := by
  have hStatus := error_status (e := e)
  have hOver : ¬ e.status < 300 := by omega
  simp [isSuccess, hOver]

section

variable {W : Web} {A : Eth.Alloy} {render : ErrorBody → String} {url : W.Url}

/-- A reachable cosigner reports what its store holds; a store that does not
read is as good as unreachable. -/
theorem fetchSigner_respond (hJoin : ∃ joined, W.join url "signer" = .ok joined)
    (active : Except StateError (Option PubkeySec1)) :
    fetchSigner W url (.ok (respond A render (signerOf active))) =
      match active with
      | .ok held => .ok held
      | .error e => .error (.Http ("GET /signer returned " ++
          W.displayStatus (CosignerError.State e).status)) := by
  obtain ⟨joined, hJoin⟩ := hJoin
  rcases active with e | _ | pk <;> simp only [fetchSigner, hJoin] <;> rfl

/-- What is read off a success is what the handler answered. -/
theorem respond_ok {T : Type} {value : T} {result : Except CosignerError T}
    (hSuccess : isSuccess (respond A render result).status = true)
    (hJson : (respond A render result).json = .ok value) : result = .ok value := by
  rcases result with e | v
  · simp [respond, error_not_success] at hSuccess
  · simpa [respond] using hJson

/-- What `get_json` returns is what the handler answered. -/
theorem getJson_respond {T : Type} {party : UInt8} {path : String} {value : T}
    {result : Except CosignerError T}
    (h : getJson W party url path (.ok (respond A render result)) = .ok value) :
    result = .ok value := by
  obtain ⟨resp, hResp, hSuccess, hJson⟩ := getJson_ok h
  rw [Except.ok.injEq] at hResp
  subst hResp
  exact respond_ok hSuccess hJson

end

end Sovra.Ipc
