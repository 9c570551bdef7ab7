import FanatecWheel.Rimlink.Handoff

/-!
# Boot of the rim firmware

`app/src/main.c`: `main` seals the frames, arms the link and then starts the
services, itself or through a work item when `CONFIG_RIM_FASTBOOT` is set. The
link thread is held by a semaphore that `link_spi_init` gives. The machine lets
it and the workqueue run between any two steps of `main`.
-/

namespace FanatecWheel.App

open Foundation Rimlink

/-- The services in the order `services_init` calls them. -/
inductive Service
  | rimSettings | rimWdt | ledSvc | lraSvc | powerMgr | outputSvc | inputSvc | health | diagSvc
deriving DecidableEq

/-- `services_init`: an error is logged and the next service is started. -/
def servicesInit : List Service :=
  [.rimSettings, .rimWdt, .ledSvc, .lraSvc, .powerMgr, .outputSvc, .inputSvc, .health, .diagSvc]

/-- What `output_svc_rx` uses: its own state, then `power_mgr_note_valid_rx`,
`led_svc_submit` and `lra_svc_rumble`. -/
def outputSvcRxUses : List Service := [.ledSvc, .lraSvc, .powerMgr, .outputSvc]

/-- Where `main` stands: the call it makes next. -/
inductive MainPc
  | rimlinkInit
  | linkSpiInit
  | startServices
  | servicesInit
  | returned
deriving DecidableEq

/-- The link, `main`, the semaphore of the link thread, and the calls of
`services_init` that have not returned. -/
structure BootSys where
  rx : RxSys
  main : MainPc
  linkRun : Bool
  left : List Service

inductive BootEvent
  | ready (svc : Service)
  | link (e : RxEvent)
  | mainStep
deriving DecidableEq

/-- `main` moves at some uptime, with the outcome of the hardware set-up; the
deferred item moves; or the link, the workqueue or another thread does. -/
inductive BootAct
  | main (now : ℤ) (linkOk : Bool)
  | deferredInit
  | link (act : RxAct)

namespace BootSys

variable (s : BootSys)

/-- The next call of `services_init` returns. -/
def serviceStep : Option (BootSys × BootEvent) :=
  match s.left with
  | [] => none
  | svc :: rest => some ({ s with left := rest }, .ready svc)

/-- The next step of `main`. The semaphore is given only when the link was set up. -/
def mainStep (fastboot : Bool) (now : ℤ) (linkOk : Bool) : Option (BootSys × BootEvent) :=
  match s.main with
  | .rimlinkInit =>
    some ({ s with
      rx.adapter := init s.rx.adapter (some true) now
      main := .linkSpiInit }, .mainStep)
  | .linkSpiInit => some ({ s with linkRun := linkOk, main := .startServices }, .mainStep)
  | .startServices =>
    if fastboot then
      some ({ s with
        -- the handler that starts the services queues behind what the link submitted
        rx.adapter.workq := s.rx.adapter.workq.submit .deferredInit
        main := .returned }, .mainStep)
    else some ({ s with main := .servicesInit }, .mainStep)
  | .servicesInit =>
    match s.left with
    -- every service was started
    | [] => some ({ s with main := .returned }, .mainStep)
    | _ :: _ => s.serviceStep
  | .returned => none

def deferredStep : Option (BootSys × BootEvent) :=
  if s.rx.adapter.workq.running = some .deferredInit then s.serviceStep else none

/-- The steps of the others that the state of the boot allows: frames arrive once
the link thread is released, the adapter is used once it is initialised, the
deferred item returns when its services have, and only `main` submits it. -/
def allows : RxAct → Prop
  | .call _ _ _ => s.linkRun = true
  | .otherCall _ => s.main ≠ .rimlinkInit
  | .otherReturn => s.rx.adapter.workq.running = some .deferredInit → s.left = []
  | .otherSubmit item => item ≠ .deferredInit
  | .submitStep | .beginWork | .handlerStep => True

instance : DecidablePred s.allows
  | .call _ _ _ => inferInstanceAs (Decidable (_ = _))
  | .otherCall _ => inferInstanceAs (Decidable (_ ≠ _))
  | .otherReturn => inferInstanceAs (Decidable (_ → _))
  | .otherSubmit _ => inferInstanceAs (Decidable (_ ≠ _))
  | .submitStep | .beginWork | .handlerStep => inferInstanceAs (Decidable True)

def linkStep (act : RxAct) : Option (BootSys × BootEvent) :=
  if s.allows act then
    (s.rx.step act).map fun (rx, e) => ({ s with rx := rx }, .link e)
  else none

def step (fastboot : Bool) : BootAct → Option (BootSys × BootEvent)
  | .main now linkOk => s.mainStep fastboot now linkOk
  | .deferredInit => s.deferredStep
  | .link act => s.linkStep act

end BootSys

/-- The firmware from reset on, in either build. -/
def bootMachine (fastboot : Bool) (id : RimId) : Machine BootSys BootAct BootEvent where
  start := {
    rx := { adapter := .boot id, submit := .idle, handler := .notRunning }
    main := .rimlinkInit
    linkRun := false
    left := servicesInit }
  step := fun s act => s.step fastboot act

end FanatecWheel.App
