import TrustyLkNxp.Hwrng.Accounting
import TrustyLkNxp.Hwrng.Stranded
import TrustyLkNxp.Hwrng.Pass
import TrustyLkNxp.Hwrng.Clients
import TrustyLkNxp.Hwkey.Access
import TrustyLkNxp.Hwkey.Isolation
import TrustyLkNxp.Hwkey.Buffers
import TrustyLkNxp.Hwkey.Placement
import TrustyLkNxp.Hwkey.Startup
import TrustyLkNxp.Stopping
import TrustyLkNxp.Connections
import TrustyLkNxp.Caam.Containment
import TrustyLkNxp.Caam.Filling
import TrustyLkNxp.Caam.History
import TrustyLkNxp.Caam.Aes
import TrustyLkNxp.Caam.Visibility
import TrustyLkNxp.Caam.Ring
import TrustyLkNxp.Platform.Mappings
import TrustyLkNxp.Platform.Console
