import UoLogin.Lib.Machine
import UoLogin.Packets
import UoLogin.Backpressure
import UoLogin.StateMachine
import UoLogin.Transparency
import UoLogin.Database.FailClosed
import UoLogin.Database.Password
import UoLogin.Database.Bookkeeping
import UoLogin.Knock
import UoLogin.SharedPipes
import UoLogin.Metrics
import UoLogin.Charges
import UoLogin.Segmentation
import UoLogin.LoginStream
import UoLogin.ShortWrites
import UoLogin.Draining
import UoLogin.Deadlines
import UoLogin.Failures
import UoLogin.ConfigFile
import UoLogin.Accounting.Identity
import UoLogin.Accounting.Gate
import UoLogin.Accounting.Cleanup
import UoLogin.Accounting.Tarpit
import UoLogin.Requesters.Delivery
import UoLogin.Requesters.Vouched
import UoLogin.Server.Runs
import UoLogin.Server.Projections
import UoLogin.Server.Firewall
import UoLogin.Server.WindDown
