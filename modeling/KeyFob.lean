import KeyFob.Proof.Resync
import KeyFob.Proof.Presses
import KeyFob.Proof.HostOrbit
import KeyFob.Proof.Playback
import KeyFob.Proof.Startup
import KeyFob.Proof.Lossy
import KeyFob.Proof.Wire
import KeyFob.Proof.Debug
import KeyFob.Proof.Printed
import KeyFob.Proof.LightServer
